import PeerLink.Launcher.Loader
import PeerLink.Text.Words

/-!
# Export and import of a configuration

`NetworkConfig::new_from_config` writes a configuration into a message of texts and numbers, and
`NetworkConfig::gen_config` reads one from such a message. Each part of `gen_config` that sets one
field of the loader is a function of its own, in the order of the source.
-/

namespace PeerLink.Launcher

open Text

inductive NetworkingMethod where
  | publicServer
  | manual
  | standalone

namespace NetworkingMethod

def toInt32 : NetworkingMethod → Int32
  | publicServer => 0
  | manual => 1
  | standalone => 2

def tryFrom (number : Int32) : Option NetworkingMethod :=
  if number = 0 then some publicServer
  else if number = 1 then some manual
  else if number = 2 then some standalone
  else none

@[simp] theorem tryFrom_toInt32 (method : NetworkingMethod) :
    tryFrom method.toInt32 = some method := by
  cases method <;> rfl

end NetworkingMethod

/-- A port forward in the message. -/
structure WebPortForwardConfig where
  bindIp : String
  bindPort : UInt32
  dstIp : String
  dstPort : UInt32
  proto : String

structure NetworkConfig where
  instanceId : Option String := none
  dhcp : Option Bool := none
  virtualIpv4 : Option String := none
  networkLength : Option Int32 := none
  hostname : Option String := none
  networkName : Option String := none
  networkSecret : Option String := none
  networkingMethod : Option Int32 := none
  publicServerUrl : Option String := none
  peerUrls : List String := []
  proxyCidrs : List String := []
  enableVpnPortal : Option Bool := none
  vpnPortalListenPort : Option Int32 := none
  vpnPortalClientNetworkAddr : Option String := none
  vpnPortalClientNetworkLen : Option Int32 := none
  listenerUrls : List String := []
  rpcPort : Option Int32 := none
  latencyFirst : Option Bool := none
  devName : Option String := none
  useSmoltcp : Option Bool := none
  disableIpv6 : Option Bool := none
  enableKcpProxy : Option Bool := none
  disableKcpInput : Option Bool := none
  disableP2p : Option Bool := none
  bindDevice : Option Bool := none
  noTun : Option Bool := none
  enableExitNode : Option Bool := none
  relayAllPeerRpc : Option Bool := none
  multiThread : Option Bool := none
  enableRelayNetworkWhitelist : Option Bool := none
  relayNetworkWhitelist : List String := []
  enableManualRoutes : Option Bool := none
  routes : List String := []
  exitNodes : List String := []
  proxyForwardBySystem : Option Bool := none
  disableEncryption : Option Bool := none
  enableSocks5 : Option Bool := none
  socks5Port : Option Int32 := none
  disableUdpHolePunching : Option Bool := none
  mtu : Option Int32 := none
  mappedListeners : List String := []
  enableMagicDns : Option Bool := none
  enablePrivateMode : Option Bool := none
  rpcPortalWhitelists : List String := []
  enableQuicProxy : Option Bool := none
  disableQuicInput : Option Bool := none
  portForwards : List WebPortForwardConfig := []
  disableSymHolePunching : Option Bool := none

/-- `gen_config` returns an error, or the code panics. -/
inductive Failure where
  | error (context : String)
  | panic (message : String)

/-- `parse` with its context. -/
def parseOr {α : Type} (parse : String → Option α) (context text : String) : Except Failure α :=
  match parse text with
  | none => .error (.error context)
  | some value => .ok value

/-- `split("->")`. -/
def splitArrow : List Char → List (List Char)
  | [] => [[]]
  | '-' :: '>' :: rest => [] :: splitArrow rest
  | c :: rest => (splitArrow rest).modifyHead (c :: ·)

variable {Url Uuid : Type} (lib : Library Url Uuid)

def debugText : Option String → String
  | none => "None"
  | some text => "Some(\"" ++ lib.escape text ++ "\")"

def debugNumber : Option Int32 → String
  | none => "None"
  | some number => "Some(" ++ toString number ++ ")"

/-! ## Import -/

def parseCidr (context text : String) : Except Failure Ipv4Cidr :=
  parseOr lib.ipv4Cidr.parse (context ++ text) text

/-- The networks of the configuration with this one. -/
def addProxyNetworkToConfig (proxyNetwork : String)
    (networks : Option (List ProxyNetworkConfig)) : Except Failure (List ProxyNetworkConfig) := do
  let parts := (splitArrow proxyNetwork.toList).map String.ofList
  let realCidr ← parseCidr lib "failed to parse proxy network: " (parts.headD "")
  if 2 < parts.length then
    throw (.error ("invalid proxy network format: " ++ proxyNetwork ++
      ", support format: <real_cidr> or <real_cidr>-><mapped_cidr>, example:\n" ++
      "                    10.0.0.0/24 or 10.0.0.0/24->192.168.0.0/24"))
  let mappedCidr ← match parts with
    | [_, mapped] => some <$> parseCidr lib "failed to parse mapped network: " mapped
    | _ => pure none
  (TomlConfigLoader.addProxyCidr networks realCidr mappedCidr).mapError .error

/-- The texts are URLs; empty ones are passed over. -/
def parseUrls (context : String) (urls : List String) : Except Failure (List Url) :=
  (urls.filter (· ≠ "")).mapM fun url => parseOr lib.url.parse (context ++ url) url

namespace NetworkConfig

variable (self : NetworkConfig)

def genId (fresh : Uuid) : Except Failure Uuid :=
  parseOr lib.uuid.parse ("failed to parse instance id: " ++ debugText lib self.instanceId)
    (self.instanceId.getD (lib.uuid.print fresh))

/-- The address is stored as a text. -/
def genIpv4 : Except Failure (Option String) :=
  let virtualIpv4 := self.virtualIpv4.getD ""
  if self.dhcp.getD false ∨ virtualIpv4 = "" then
    pure none
  else do
    let ip ← parseOr lib.ipv4Inet.parse
      ("failed to parse ipv4 inet address: " ++ virtualIpv4 ++ ", " ++
        debugNumber self.networkLength)
      (virtualIpv4 ++ "/" ++ toString (self.networkLength.getD 24))
    return some (lib.ipv4Inet.print ip)

def genPeers : Except Failure (Option (List Url)) :=
  match (NetworkingMethod.tryFrom (self.networkingMethod.getD 0)).getD .publicServer with
  | .publicServer => do
    let publicServerUrl := self.publicServerUrl.getD ""
    let uri ← parseOr lib.url.parse ("failed to parse public server uri: " ++ publicServerUrl)
      publicServerUrl
    return some [uri]
  | .manual => some <$> parseUrls lib "failed to parse peer uri: " self.peerUrls
  | .standalone => pure none

def genListeners : Except Failure (List Url) :=
  parseUrls lib "failed to parse listener uri: " self.listenerUrls

def genProxyNetwork : Except Failure (Option (List ProxyNetworkConfig)) :=
  self.proxyCidrs.foldlM (fun networks text => some <$> addProxyNetworkToConfig lib text networks)
    none

def genRpcPortal : Except Failure SocketAddr :=
  parseOr lib.parseSocketAddr ("failed to parse rpc portal port: " ++ debugNumber self.rpcPort)
    ("0.0.0.0:" ++ toString (self.rpcPort.getD 0))

def genRpcPortalWhitelist : Except Failure (Option (List IpCidr)) :=
  if self.rpcPortalWhitelists = [] then pure none
  else some <$> self.rpcPortalWhitelists.mapM fun text =>
    parseOr lib.ipCidr.parse ("failed to parse rpc portal whitelist: " ++ text) text

/-- A forward whose addresses cannot be parsed is passed over. -/
def genPortForward (forward : WebPortForwardConfig) : Option PortForwardConfig := do
  let bindAddr ← lib.parseSocketAddr (forward.bindIp ++ ":" ++ toString forward.bindPort.toNat)
  let dstAddr ← lib.parseSocketAddr (forward.dstIp ++ ":" ++ toString forward.dstPort.toNat)
  return ⟨bindAddr, dstAddr, forward.proto⟩

def genPortForwards : Option (List PortForwardConfig) :=
  if self.portForwards = [] then none
  else some ((self.portForwards.filter fun forward =>
    forward.bindIp ≠ "" ∧ forward.dstIp ≠ "").filterMap (genPortForward lib))

def genVpnPortalConfig : Except Failure (Option VpnPortalConfig) :=
  if self.enableVpnPortal.getD false then do
    let cidr := self.vpnPortalClientNetworkAddr.getD "" ++ "/" ++
      toString (self.vpnPortalClientNetworkLen.getD 24)
    let clientCidr ← parseCidr lib "failed to parse vpn portal client cidr: " cidr
    let wireguardListen ← parseOr lib.parseSocketAddr
      ("failed to parse vpn portal wireguard listen port. " ++
        debugNumber self.vpnPortalListenPort)
      ("0.0.0.0:" ++ toString (self.vpnPortalListenPort.getD 0))
    return some ⟨clientCidr, wireguardListen⟩
  else
    pure none

def genRoutes : Except Failure (Option (List Ipv4Cidr)) :=
  if self.enableManualRoutes.getD false then
    some <$> self.routes.mapM (parseCidr lib "failed to parse route: ")
  else
    pure none

def genExitNodes : Except Failure (Option (List IpAddr)) :=
  if self.exitNodes = [] then pure none
  else some <$> self.exitNodes.mapM fun node =>
    parseOr lib.ip.parse ("failed to parse exit node: " ++ node) node

def genSocks5Proxy : Except Failure (Option Url) :=
  match self.enableSocks5.getD false, self.socks5Port with
  | true, some socks5Port =>
    match lib.url.parse ("socks5://0.0.0.0:" ++ toString socks5Port) with
    | none => .error (.panic "called `Result::unwrap()` on an `Err` value")
    | some url => .ok (some url)
  | _, _ => pure none

def genMappedListener (text : String) : Except Failure Url :=
  match lib.url.parse text with
  | none => .error (.panic ("called `Result::unwrap()` on an `Err` value: " ++
      "mapped listener is not a valid url: " ++ text))
  | some url =>
    if (lib.port url).isNone then
      .error (.panic ("mapped listener port is missing: " ++ lib.url.print url))
    else
      .ok url

def genMappedListeners : Except Failure (Option (List Url)) :=
  if self.mappedListeners = [] then pure none
  else some <$> self.mappedListeners.mapM (genMappedListener lib)

def genFlags : Flags :=
  let flags := genDefaultFlags
  { flags with
    latencyFirst := self.latencyFirst.getD flags.latencyFirst
    devName := self.devName.getD flags.devName
    useSmoltcp := self.useSmoltcp.getD flags.useSmoltcp
    enableIpv6 := (self.disableIpv6.map not).getD flags.enableIpv6
    enableKcpProxy := self.enableKcpProxy.getD flags.enableKcpProxy
    disableKcpInput := self.disableKcpInput.getD flags.disableKcpInput
    enableQuicProxy := self.enableQuicProxy.getD flags.enableQuicProxy
    disableQuicInput := self.disableQuicInput.getD flags.disableQuicInput
    disableP2p := self.disableP2p.getD flags.disableP2p
    bindDevice := self.bindDevice.getD flags.bindDevice
    noTun := self.noTun.getD flags.noTun
    enableExitNode := self.enableExitNode.getD flags.enableExitNode
    relayAllPeerRpc := self.relayAllPeerRpc.getD flags.relayAllPeerRpc
    multiThread := self.multiThread.getD flags.multiThread
    proxyForwardBySystem := self.proxyForwardBySystem.getD flags.proxyForwardBySystem
    enableEncryption := (self.disableEncryption.map not).getD flags.enableEncryption
    relayNetworkWhitelist :=
      if self.enableRelayNetworkWhitelist.getD false then
        if self.relayNetworkWhitelist ≠ [] then " ".intercalate self.relayNetworkWhitelist else ""
      else
        flags.relayNetworkWhitelist
    disableUdpHolePunching := self.disableUdpHolePunching.getD flags.disableUdpHolePunching
    disableSymHolePunching := self.disableSymHolePunching.getD flags.disableSymHolePunching
    acceptDns := self.enableMagicDns.getD flags.acceptDns
    mtu := (self.mtu.map Int32.toUInt32).getD flags.mtu
    privateMode := self.enablePrivateMode.getD flags.privateMode }

def genConfig (fresh : Uuid) : Except Failure (TomlConfigLoader Url Uuid) := do
  let instanceId ← self.genId lib fresh
  let ipv4 ← self.genIpv4 lib
  let peer ← self.genPeers lib
  let listeners ← self.genListeners lib
  let proxyNetwork ← self.genProxyNetwork lib
  let rpcPortal ← self.genRpcPortal lib
  let rpcPortalWhitelist ← self.genRpcPortalWhitelist lib
  let vpnPortalConfig ← self.genVpnPortalConfig lib
  let routes ← self.genRoutes lib
  let exitNodes ← self.genExitNodes lib
  let socks5Proxy ← self.genSocks5Proxy lib
  let mappedListeners ← self.genMappedListeners lib
  return {
    hostname := self.hostname
    instanceName := some (self.networkName.getD "")
    instanceId := some instanceId
    ipv4
    dhcp := some (self.dhcp.getD false)
    networkIdentity := some (.new (self.networkName.getD ""))
    listeners := some listeners
    mappedListeners
    exitNodes
    peer
    proxyNetwork
    rpcPortal := some rpcPortal
    rpcPortalWhitelist
    vpnPortalConfig
    routes
    socks5Proxy
    portForward := self.genPortForwards lib
    flagsStruct := some self.genFlags }

/-! ## Export -/

def printProxy (proxy : ProxyNetworkConfig) : String :=
  match proxy.mappedCidr with
  | some mapped => lib.ipv4Cidr.print proxy.cidr ++ "->" ++ lib.ipv4Cidr.print mapped
  | none => lib.ipv4Cidr.print proxy.cidr

def printForward (forward : PortForwardConfig) : WebPortForwardConfig where
  proto := forward.proto
  bindIp := lib.ip.print forward.bindAddr.ip
  bindPort := forward.bindAddr.port.toUInt32
  dstIp := lib.ip.print forward.dstAddr.ip
  dstPort := forward.dstAddr.port.toUInt32

/-- What `new_from_config` writes, for the id and the host name that it has read. -/
def message (id : Uuid) (hostname : String) (config : TomlConfigLoader Url Uuid) :
    NetworkConfig :=
  let ipv4 := config.getIpv4 lib.ipv4Inet.parse
  let peers := config.getPeers
  let vpn := config.vpnPortalConfig
  let routes := config.getRoutes.getD []
  let flags := config.getFlags
  let whitelisted := flags.relayNetworkWhitelist ≠ "" ∧ flags.relayNetworkWhitelist ≠ "*"
  { instanceId := some (lib.uuid.print id)
    hostname := if hostname ≠ lib.gethostname then some hostname else none
    dhcp := some config.getDhcp
    networkName := some config.getNetworkIdentity.networkName
    networkSecret := none
    virtualIpv4 := ipv4.map fun inet => lib.ip.print (.v4 inet.address)
    networkLength := ipv4.map fun inet => Int32.ofNat inet.networkLength.toNat
    networkingMethod := some (match peers with
      | [_] => NetworkingMethod.publicServer
      | [] => NetworkingMethod.standalone
      | _ => NetworkingMethod.manual).toInt32
    publicServerUrl := match peers with
      | [peer] => some (lib.url.print peer)
      | _ => none
    peerUrls := match peers with
      | [_] => []
      | _ => peers.map lib.url.print
    listenerUrls := (config.getListeners.getD []).map lib.url.print
    proxyCidrs := config.getProxyCidrs.map (printProxy lib)
    rpcPort := config.rpcPortal.map fun portal => Int32.ofNat portal.port.toNat
    rpcPortalWhitelists := (config.rpcPortalWhitelist.getD []).map lib.ipCidr.print
    portForwards := config.getPortForwards.map (printForward lib)
    enableVpnPortal := vpn.map fun _ => true
    vpnPortalClientNetworkAddr := vpn.map fun vpn => lib.ip.print (.v4 vpn.clientCidr.firstAddress)
    vpnPortalClientNetworkLen := vpn.map fun vpn =>
      Int32.ofNat vpn.clientCidr.networkLength.toNat
    vpnPortalListenPort := vpn.map fun vpn => Int32.ofNat vpn.wireguardListen.port.toNat
    enableManualRoutes := if routes ≠ [] then some true else none
    routes := routes.map lib.ipv4Cidr.print
    exitNodes := config.getExitNodes.map lib.ip.print
    enableSocks5 := config.socks5Proxy.map fun _ => true
    socks5Port := config.socks5Proxy.bind fun url =>
      (lib.port url).map fun port => Int32.ofNat port.toNat
    mappedListeners := config.getMappedListeners.map lib.url.print
    latencyFirst := some flags.latencyFirst
    devName := some flags.devName
    useSmoltcp := some flags.useSmoltcp
    disableIpv6 := some (!flags.enableIpv6)
    enableKcpProxy := some flags.enableKcpProxy
    disableKcpInput := some flags.disableKcpInput
    enableQuicProxy := some flags.enableQuicProxy
    disableQuicInput := some flags.disableQuicInput
    disableP2p := some flags.disableP2p
    bindDevice := some flags.bindDevice
    noTun := some flags.noTun
    enableExitNode := some flags.enableExitNode
    relayAllPeerRpc := some flags.relayAllPeerRpc
    multiThread := some flags.multiThread
    proxyForwardBySystem := some flags.proxyForwardBySystem
    disableEncryption := some (!flags.enableEncryption)
    disableUdpHolePunching := some flags.disableUdpHolePunching
    enableMagicDns := some flags.acceptDns
    mtu := some flags.mtu.toInt32
    enablePrivateMode := some flags.privateMode
    enableRelayNetworkWhitelist := if whitelisted then some true else none
    relayNetworkWhitelist :=
      if whitelisted then splitWhitespace flags.relayNetworkWhitelist else [] }

/-- The message, and the loader with the id and the host name that its getters have stored. It
never fails. -/
def newFromConfig (fresh : Uuid) (config : TomlConfigLoader Url Uuid) :
    NetworkConfig × TomlConfigLoader Url Uuid :=
  let (id, config) := config.getId fresh
  let (hostname, config) := config.getHostname lib.gethostname
  (message lib id hostname config, config)

end NetworkConfig

end PeerLink.Launcher
