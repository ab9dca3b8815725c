import Mathlib.Data.List.Nodup
import PeerLink.Launcher.Formats
import PeerLink.Launcher.NetworkConfig
import PeerLink.Outcome.Bind

/-!
# Configurations that survive export and import

For each field, what `gen_config` makes of what `new_from_config` has written, and from that which
configurations come back as they were (`agrees_iff_survives`).
-/

namespace PeerLink.Launcher

open Text NetworkConfig

variable {Url Uuid : Type} {lib : Library Url Uuid}

/-! ## Texts -/

variable {α : Type} {text : List Char} {proxies : List ProxyNetworkConfig}

theorem parseOr_print (format : Format α) (context : String) (value : α) :
    parseOr format.parse context (format.print value) = .ok value := by
  rw [parseOr, format.parse_print]

theorem Format.print_ne_empty {format : Format α} (empty : format.parse "" = none)
    (value : α) : format.print value ≠ "" := by
  intro printed
  have parsed := format.parse_print value
  rw [printed, empty] at parsed
  cases parsed

theorem parseCidr_print (context : String) (cidr : Ipv4Cidr) :
    parseCidr lib context (lib.ipv4Cidr.print cidr) = .ok cidr :=
  parseOr_print lib.ipv4Cidr _ cidr

theorem parseUrls_print (context : String) (urls : List Url) :
    parseUrls lib context (urls.map lib.url.print) = .ok urls := by
  have all : (urls.map lib.url.print).filter (· ≠ "") = urls.map lib.url.print := by
    refine List.filter_eq_self.mpr fun text mem => ?_
    obtain ⟨url, -, rfl⟩ := List.mem_map.mp mem
    exact decide_eq_true (lib.url.print_ne_empty lib.url_empty url)
  rw [parseUrls, all]
  exact mapM_map_ok fun url _ => parseOr_print lib.url _ url

theorem parseSocketAddr_v6 (addr : Ipv6Addr) (port : String) :
    lib.parseSocketAddr (lib.ip.print (.v6 addr) ++ ":" ++ port) = none := by
  have colons := lib.colons_ipv6 addr
  match parsed : lib.parseSocketAddr (lib.ip.print (.v6 addr) ++ ":" ++ port) with
  | none => rfl
  | some (.v4 _ _) =>
    have one := lib.colons_ipv4_port _ _ _ parsed
    rw [String.toList_append, String.toList_append, List.count_append, List.count_append] at one
    omega
  | some (.v6 _ _ _ _) =>
    have bracket := lib.bracket_ipv6_port _ _ _ _ _ parsed
    have noBracket := lib.bracket_ipv6 addr
    rw [String.toList_append, String.toList_append, List.append_assoc] at bracket
    cases printed : (lib.ip.print (.v6 addr)).toList with
    | nil =>
      rw [printed] at colons
      cases colons
    | cons c rest =>
      rw [printed] at bracket noBracket
      exact absurd bracket noBracket

/-! ## Port forwards -/

theorem parseSocketAddr_print (addr : SocketAddr) :
    lib.parseSocketAddr
        (lib.ip.print addr.ip ++ ":" ++ toString addr.port.toUInt32.toNat) =
      if addr.isIpv4 then some addr else none := by
  cases addr with
  | v4 ip port =>
    rw [SocketAddr.port, UInt16.toNat_toUInt32]
    exact lib.parse_ipv4_port ip port
  | v6 ip port _ _ => exact parseSocketAddr_v6 ip _

def PortForwardConfig.isIpv4 (forward : PortForwardConfig) : Bool :=
  forward.bindAddr.isIpv4 && forward.dstAddr.isIpv4

theorem genPortForward_print (forward : PortForwardConfig) :
    genPortForward lib (printForward lib forward) =
      if forward.isIpv4 then some forward else none := by
  simp only [genPortForward, printForward, parseSocketAddr_print, PortForwardConfig.isIpv4]
  obtain ⟨bindAddr, dstAddr, proto⟩ := forward
  cases bindAddr <;> cases dstAddr <;> rfl

/-- Only the forwards between IPv4 addresses come back. -/
theorem genPortForwards_message (id : Uuid) (hostname : String)
    (config : TomlConfigLoader Url Uuid) :
    ((message lib id hostname config).genPortForwards lib).getD [] =
      config.getPortForwards.filter PortForwardConfig.isIpv4 := by
  have all : (config.getPortForwards.map (printForward lib)).filter
      (fun forward => forward.bindIp ≠ "" ∧ forward.dstIp ≠ "") =
        config.getPortForwards.map (printForward lib) := by
    refine List.filter_eq_self.mpr fun forward mem => ?_
    obtain ⟨forward, -, rfl⟩ := List.mem_map.mp mem
    have nonempty := lib.ip.print_ne_empty lib.ip_empty
    exact decide_eq_true ⟨nonempty _, nonempty _⟩
  have each : genPortForward lib ∘ printForward lib =
      Option.guard PortForwardConfig.isIpv4 :=
    funext genPortForward_print
  simp only [genPortForwards, message, all, List.filterMap_map, each, List.filterMap_eq_filter]
  split_ifs with none
  · rw [List.map_eq_nil_iff.mp none]
    rfl
  · rfl

/-! ## Proxy networks -/

/-- A proxy network with its mapping. -/
def ProxyNetworkConfig.mapping (proxy : ProxyNetworkConfig) : Ipv4Cidr × Option Ipv4Cidr :=
  (proxy.cidr, proxy.mappedCidr)

theorem splitArrow_dashless (dashless : '-' ∉ text) :
    splitArrow text = [text] := by
  induction text with
  | nil => rfl
  | cons c rest ih =>
    obtain ⟨other, later⟩ := List.ne_and_not_mem_of_not_mem_cons dashless
    rw [splitArrow, ih later]
    · rfl
    · rintro rest rfl
      exact absurd rfl other

theorem splitArrow_append (dashless : '-' ∉ text) (rest : List Char) :
    splitArrow (text ++ '-' :: '>' :: rest) = text :: splitArrow rest := by
  induction text with
  | nil => rfl
  | cons c text ih =>
    obtain ⟨other, later⟩ := List.ne_and_not_mem_of_not_mem_cons dashless
    rw [List.cons_append, splitArrow, ih later]
    · rfl
    · rintro rest rfl
      exact absurd rfl other

theorem addProxyNetworkToConfig_print (proxy : ProxyNetworkConfig)
    (networks : Option (List ProxyNetworkConfig)) :
    addProxyNetworkToConfig lib (printProxy lib proxy) networks =
      (TomlConfigLoader.addProxyCidr networks proxy.cidr proxy.mappedCidr).mapError .error := by
  have dashless := lib.cidr_dashless
  cases mapped : proxy.mappedCidr with
  | none =>
    have split : splitArrow (printProxy lib proxy).toList =
        [(lib.ipv4Cidr.print proxy.cidr).toList] := by
      rw [printProxy, mapped]
      exact splitArrow_dashless (dashless _)
    simp only [addProxyNetworkToConfig, split, List.map_cons, List.map_nil, String.ofList_toList,
      List.headD_cons, parseCidr_print]
    rfl
  | some target =>
    have split : splitArrow (printProxy lib proxy).toList =
        [(lib.ipv4Cidr.print proxy.cidr).toList, (lib.ipv4Cidr.print target).toList] := by
      have text : (printProxy lib proxy).toList = (lib.ipv4Cidr.print proxy.cidr).toList ++
          '-' :: '>' :: (lib.ipv4Cidr.print target).toList := by
        simp [printProxy, mapped]
      rw [text, splitArrow_append (dashless _), splitArrow_dashless (dashless _)]
    simp only [addProxyNetworkToConfig, split, List.map_cons, List.map_nil, String.ofList_toList,
      List.headD_cons, parseCidr_print]
    rfl

/-- The list with a value that it may already have. -/
def addNew {α : Type} [DecidableEq α] (list : List α) (value : α) : List α :=
  if value ∈ list then list else list ++ [value]

section
variable {α : Type} [DecidableEq α] {list values : List α}

theorem nodup_foldl_addNew (nodup : list.Nodup) : (values.foldl addNew list).Nodup := by
  induction values generalizing list with
  | nil => exact nodup
  | cons value values ih =>
    apply ih
    unfold addNew
    split_ifs with new
    · exact nodup
    · rw [← List.concat_eq_append]
      exact nodup.concat new

theorem foldl_addNew_of_nodup (nodup : (list ++ values).Nodup) :
    values.foldl addNew list = list ++ values := by
  induction values generalizing list with
  | nil => rw [List.append_nil, List.foldl_nil]
  | cons value values ih =>
    have new : value ∉ list := fun mem =>
      (List.nodup_append.mp nodup).2.2 value mem value List.mem_cons_self rfl
    rw [List.append_cons] at nodup
    rw [List.foldl_cons, addNew, if_neg new, ih nodup, ← List.append_cons]

theorem foldl_addNew_eq_iff : values.foldl addNew [] = values ↔ values.Nodup := by
  constructor
  · intro same
    rw [← same]
    exact nodup_foldl_addNew List.nodup_nil
  · intro nodup
    exact foldl_addNew_of_nodup nodup

end

section
variable {networks : Option (List ProxyNetworkConfig)} {cidr : Ipv4Cidr}
  {mappedCidr : Option Ipv4Cidr} {networks' : List ProxyNetworkConfig}

theorem addProxyCidr_ok
    (added : TomlConfigLoader.addProxyCidr networks cidr mappedCidr = .ok networks') :
    networks'.map ProxyNetworkConfig.mapping =
      addNew ((networks.getD []).map ProxyNetworkConfig.mapping) (cidr, mappedCidr) := by
  have last : (if (networks.getD []).any fun c => c.cidr = cidr ∧ c.mappedCidr = mappedCidr then
      pure (networks.getD [])
    else
      pure (networks.getD [] ++ [⟨cidr, mappedCidr, none⟩]) : Except String _) = .ok networks' := by
    cases mappedCidr with
    | none => exact added
    | some mapped =>
      simp only [TomlConfigLoader.addProxyCidr] at added
      split at added
      · cases added
      · exact added
  have present :
      ((networks.getD []).any fun c => c.cidr = cidr ∧ c.mappedCidr = mappedCidr) = true ↔
      (cidr, mappedCidr) ∈ (networks.getD []).map ProxyNetworkConfig.mapping := by
    simp [ProxyNetworkConfig.mapping]
  rw [addNew]
  split_ifs at last with found
  · cases last
    rw [if_pos (present.mp found)]
  · cases last
    rw [if_neg (mt present.mpr found), List.map_append]
    rfl

end

/-- A network that comes a second time is passed over. -/
theorem foldlM_addProxy_ok {networks networks' : Option (List ProxyNetworkConfig)}
    (added : (proxies.map (printProxy lib)).foldlM
      (fun networks text => some <$> addProxyNetworkToConfig lib text networks) networks =
        .ok networks') :
    (networks'.getD []).map ProxyNetworkConfig.mapping =
      (proxies.map ProxyNetworkConfig.mapping).foldl addNew
        ((networks.getD []).map ProxyNetworkConfig.mapping) := by
  induction proxies generalizing networks with
  | nil =>
    cases added
    rfl
  | cons proxy proxies ih =>
    rw [List.map_cons, List.foldlM_cons, bind_ok] at added
    obtain ⟨mid, here, later⟩ := added
    rw [addProxyNetworkToConfig_print] at here
    rw [ih later, List.map_cons, List.foldl_cons]
    cases stepped : TomlConfigLoader.addProxyCidr networks proxy.cidr proxy.mappedCidr with
    | error context =>
      rw [stepped] at here
      cases here
    | ok next =>
      rw [stepped] at here
      cases here
      rw [Option.getD_some, addProxyCidr_ok stepped]
      rfl

/-! ## Lists of values -/

section
variable {id fresh : Uuid} {hostname : String} {config : TomlConfigLoader Url Uuid}

theorem genId_message : (message lib id hostname config).genId lib fresh = .ok id :=
  parseOr_print lib.uuid _ id

theorem genPeers_message (lib : Library Url Uuid) (id : Uuid) (hostname : String)
    (config : TomlConfigLoader Url Uuid) :
    ∃ peer, (message lib id hostname config).genPeers lib = .ok peer ∧
      peer.getD [] = config.getPeers := by
  match peers : config.getPeers with
  | [] =>
    refine ⟨none, ?_, rfl⟩
    simp only [genPeers, message, peers, Option.getD_some, NetworkingMethod.tryFrom_toInt32]
    rfl
  | [peer] =>
    refine ⟨some [peer], ?_, rfl⟩
    simp only [genPeers, message, peers, Option.getD_some, NetworkingMethod.tryFrom_toInt32,
      parseOr_print]
    rfl
  | peer :: other :: rest =>
    refine ⟨some (peer :: other :: rest), ?_, rfl⟩
    simp only [genPeers, message, peers, Option.getD_some, NetworkingMethod.tryFrom_toInt32,
      parseUrls_print]
    rfl

theorem genListeners_message :
    (message lib id hostname config).genListeners lib = .ok (config.getListeners.getD []) :=
  parseUrls_print _ _

theorem genRoutes_message :
    (message lib id hostname config).genRoutes lib =
      .ok (if config.getRoutes.getD [] = [] then none else some (config.getRoutes.getD [])) := by
  simp only [genRoutes, message]
  by_cases none : config.getRoutes.getD [] = []
  · simp only [none, ne_eq, not_true_eq_false, if_false, if_true]
    rfl
  · simp only [none, ne_eq, not_false_eq_true, if_true, if_false, Option.getD_some]
    rw [mapM_map_ok fun cidr _ => parseCidr_print _ cidr]
    rfl

/-- A list that is only read if there is something in it. -/
theorem getD_of_optional {write : α → String} {read : String → Except Failure α}
    (sound : ∀ a b, read (write a) = .ok b → b = a) {values : List α} {result : Option (List α)}
    (done : (if values.map write = [] then pure none else some <$> (values.map write).mapM read) =
      .ok result) : result.getD [] = values := by
  split_ifs at done with none
  · cases done
    exact (List.map_eq_nil_iff.mp none).symm
  · cases mapped : (values.map write).mapM read with
    | error failure =>
      rw [mapped] at done
      cases done
    | ok values' =>
      rw [mapped] at done
      cases done
      exact eq_of_mapM_map_ok sound mapped

theorem genExitNodes_message {nodes : Option (List IpAddr)}
    (done : (message lib id hostname config).genExitNodes lib = .ok nodes) :
    nodes.getD [] = config.getExitNodes := by
  refine getD_of_optional (fun a b parsed => ?_) done
  rw [parseOr_print] at parsed
  cases parsed
  rfl

theorem genMappedListeners_message {listeners : Option (List Url)}
    (done : (message lib id hostname config).genMappedListeners lib = .ok listeners) :
    listeners.getD [] = config.getMappedListeners := by
  refine getD_of_optional (fun a b parsed => ?_) done
  rw [genMappedListener, lib.url.parse_print] at parsed
  dsimp only at parsed
  split at parsed
  · cases parsed
  · cases parsed
    rfl

/-! ## Flags -/

/-- The boolean flags that the message has a field for. -/
def Flags.switches (flags : Flags) : List Bool :=
  [flags.latencyFirst, flags.useSmoltcp, flags.enableIpv6, flags.enableKcpProxy,
    flags.disableKcpInput, flags.enableQuicProxy, flags.disableQuicInput, flags.disableP2p,
    flags.bindDevice, flags.noTun, flags.enableExitNode, flags.relayAllPeerRpc, flags.multiThread,
    flags.proxyForwardBySystem, flags.enableEncryption, flags.disableUdpHolePunching,
    flags.disableSymHolePunching, flags.acceptDns, flags.privateMode]

/-- Every switch is written but one. -/
theorem genFlags_switches :
    (message lib id hostname config).genFlags.switches =
      { config.getFlags with disableSymHolePunching := false }.switches := by
  simp [genFlags, message, genDefaultFlags, Flags.switches]

theorem genFlags_relayNetworkWhitelist :
    (message lib id hostname config).genFlags.relayNetworkWhitelist =
      if config.getFlags.relayNetworkWhitelist = "" then "*"
      else " ".intercalate (splitWhitespace config.getFlags.relayNetworkWhitelist) := by
  have star : " ".intercalate (splitWhitespace "*") = "*" := by decide +kernel
  simp only [genFlags, message, genDefaultFlags]
  split_ifs <;> simp_all

/-! ## Configurations -/

/-- The configurations agree on what the message has fields for. -/
structure Agrees (config config' : TomlConfigLoader Url Uuid) : Prop where
  id : config'.instanceId = config.instanceId
  dhcp : config'.getDhcp = config.getDhcp
  peers : config'.getPeers = config.getPeers
  listeners : config'.getListeners = config.getListeners
  proxyCidrs : config'.getProxyCidrs.map ProxyNetworkConfig.mapping =
    config.getProxyCidrs.map ProxyNetworkConfig.mapping
  portForwards : config'.getPortForwards = config.getPortForwards
  routes : config'.getRoutes = config.getRoutes
  exitNodes : config'.getExitNodes = config.getExitNodes
  mappedListeners : config'.getMappedListeners = config.getMappedListeners
  relayNetworkWhitelist :
    config'.getFlags.relayNetworkWhitelist = config.getFlags.relayNetworkWhitelist
  switches : config'.getFlags.switches = config.getFlags.switches

/-- There is a list of listeners, no proxy network with its mapping stands twice, port forwards are
between IPv4 addresses, manual routes are not an empty list, the whitelist is one or more words
with single blanks between them, and symmetric hole punching is not disabled. -/
structure Survives (config : TomlConfigLoader Url Uuid) : Prop where
  listeners : config.getListeners ≠ none
  proxyCidrs : (config.getProxyCidrs.map ProxyNetworkConfig.mapping).Nodup
  portForwards : ∀ forward ∈ config.getPortForwards, forward.isIpv4 = true
  routes : config.getRoutes ≠ some []
  relayNetworkWhitelist : SingleSpaced config.getFlags.relayNetworkWhitelist
  disableSymHolePunching : config.getFlags.disableSymHolePunching = false

/-- What comes back of a configuration with its id. -/
structure Restored (id : Uuid) (config config' : TomlConfigLoader Url Uuid) : Prop where
  id : config'.instanceId = some id
  dhcp : config'.getDhcp = config.getDhcp
  peers : config'.getPeers = config.getPeers
  listeners : config'.getListeners = some (config.getListeners.getD [])
  proxyCidrs : config'.getProxyCidrs.map ProxyNetworkConfig.mapping =
    (config.getProxyCidrs.map ProxyNetworkConfig.mapping).foldl addNew []
  portForwards : config'.getPortForwards = config.getPortForwards.filter PortForwardConfig.isIpv4
  routes : config'.getRoutes =
    if config.getRoutes.getD [] = [] then none else some (config.getRoutes.getD [])
  exitNodes : config'.getExitNodes = config.getExitNodes
  mappedListeners : config'.getMappedListeners = config.getMappedListeners
  relayNetworkWhitelist : config'.getFlags.relayNetworkWhitelist =
    if config.getFlags.relayNetworkWhitelist = "" then "*"
    else " ".intercalate (splitWhitespace config.getFlags.relayNetworkWhitelist)
  switches : config'.getFlags.switches =
    { config.getFlags with disableSymHolePunching := false }.switches

variable {config' : TomlConfigLoader Url Uuid}

theorem genConfig_restores
    (generated : (message lib id hostname config).genConfig lib fresh = .ok config') :
    Restored id config config' := by
  simp only [genConfig, bind_ok] at generated
  obtain ⟨id', readId, ipv4, -, peer, readPeer, listeners, readListeners, networks, readNetworks,
    portal, -, portalWhitelist, -, vpn, -, routes, readRoutes, nodes, readNodes, socks5, -, mapped,
    readMapped, made⟩ := generated
  cases made
  obtain ⟨peer', readPeer', peers⟩ := genPeers_message lib id hostname config
  rw [genId_message] at readId
  rw [readPeer] at readPeer'
  rw [genListeners_message] at readListeners
  rw [genRoutes_message] at readRoutes
  cases readId
  cases readPeer'
  cases readListeners
  cases readRoutes
  exact {
    id := rfl
    dhcp := rfl
    peers
    listeners := rfl
    proxyCidrs := foldlM_addProxy_ok readNetworks
    portForwards := genPortForwards_message id hostname config
    routes := rfl
    exitNodes := genExitNodes_message readNodes
    mappedListeners := genMappedListeners_message readMapped
    relayNetworkWhitelist := genFlags_relayNetworkWhitelist
    switches := genFlags_switches }

theorem Restored.agrees_iff (restored : Restored id config config')
    (hasId : config.instanceId = some id) : Agrees config config' ↔ Survives config := by
  constructor
  · intro agrees
    refine ⟨fun none => ?_, ?_, ?_, fun empty => ?_, ?_, ?_⟩
    · have listeners := restored.listeners.symm.trans agrees.listeners
      rw [none] at listeners
      cases listeners
    · exact foldl_addNew_eq_iff.mp (restored.proxyCidrs.symm.trans agrees.proxyCidrs)
    · exact List.filter_eq_self.mp (restored.portForwards.symm.trans agrees.portForwards)
    · have routes := restored.routes.symm.trans agrees.routes
      rw [empty] at routes
      cases routes
    · have same := restored.relayNetworkWhitelist.symm.trans agrees.relayNetworkWhitelist
      split_ifs at same with empty
      · rw [empty] at same
        exact absurd same (by decide)
      · exact singleSpaced_iff.mpr ⟨empty, same⟩
    · have same := restored.switches.symm.trans agrees.switches
      simpa [Flags.switches] using same
  · intro survives
    obtain ⟨nonempty, singleSpaced⟩ := singleSpaced_iff.mp survives.relayNetworkWhitelist
    refine ⟨restored.id.trans hasId.symm, restored.dhcp, restored.peers, ?_, ?_, ?_, ?_,
      restored.exitNodes, restored.mappedListeners, ?_, ?_⟩
    · obtain ⟨listeners, found⟩ := Option.ne_none_iff_exists'.mp survives.listeners
      rw [restored.listeners, found, Option.getD_some]
    · rw [restored.proxyCidrs]
      exact foldl_addNew_eq_iff.mpr survives.proxyCidrs
    · rw [restored.portForwards]
      exact List.filter_eq_self.mpr survives.portForwards
    · rw [restored.routes]
      cases found : config.getRoutes with
      | none => rfl
      | some routes =>
        refine if_neg fun empty => survives.routes ?_
        rw [found]
        exact congrArg some empty
    · rw [restored.relayNetworkWhitelist, if_neg nonempty, singleSpaced]
    · rw [restored.switches, ← survives.disableSymHolePunching]

end

/-- What the getters store leaves the rest as it is. -/
theorem newFromConfig_eq (lib : Library Url Uuid) (fresh : Uuid)
    (config : TomlConfigLoader Url Uuid) :
    ∃ id hostname stored, newFromConfig lib fresh config =
      (message lib id hostname { config with instanceId := some id, hostname := stored },
        { config with instanceId := some id, hostname := stored }) := by
  have getId : ∃ id, config.getId fresh = (id, { config with instanceId := some id }) := by
    unfold TomlConfigLoader.getId
    split
    · exact ⟨fresh, rfl⟩
    · rename_i id found
      exact ⟨id, by rw [← found]⟩
  have getHostname (config : TomlConfigLoader Url Uuid) : ∃ hostname stored,
      config.getHostname lib.gethostname = (hostname, { config with hostname := stored }) := by
    unfold TomlConfigLoader.getHostname
    split
    · rename_i found
      exact ⟨lib.gethostname, none, by rw [← found]⟩
    · dsimp only
      split <;> exact ⟨_, _, rfl⟩
  obtain ⟨id, gotId⟩ := getId
  obtain ⟨hostname, stored, gotHostname⟩ := getHostname { config with instanceId := some id }
  refine ⟨id, hostname, stored, ?_⟩
  simp [newFromConfig, gotId, gotHostname]

/-- **Export and import.** A configuration that can be read back is the one that was written if and
only if it is one that survives. -/
theorem agrees_iff_survives (lib : Library Url Uuid) (fresh fresh' : Uuid)
    (config : TomlConfigLoader Url Uuid) {config' : TomlConfigLoader Url Uuid}
    (generated : (newFromConfig lib fresh config).1.genConfig lib fresh' = .ok config') :
    Agrees (newFromConfig lib fresh config).2 config' ↔ Survives config := by
  obtain ⟨id, hostname, stored, exported⟩ := newFromConfig_eq lib fresh config
  rw [exported] at generated ⊢
  rw [(genConfig_restores generated).agrees_iff rfl]
  exact ⟨fun survives => { survives with }, fun survives => { survives with }⟩

/-! ## Two configurations -/

namespace Decimal

abbrev Loader := TomlConfigLoader { text : String // text ≠ "" } (BitVec 128)

/-- Two peers, a mapped network and something of everything else. -/
def office : Loader :=
  { TomlConfigLoader.default with
    peer := some [⟨"tcp://1.1.1.1:11010", by decide⟩, ⟨"udp://2.2.2.2:11010", by decide⟩]
    listeners := some [⟨"tcp://0.0.0.0:11010", by decide⟩]
    mappedListeners := some [⟨"tcp://3.3.3.3:11010", by decide⟩]
    proxyNetwork := some [⟨⟨⟨10, 0, 0, 0⟩, 24⟩, some ⟨⟨192, 168, 0, 0⟩, 24⟩, none⟩]
    portForward := some [⟨.v4 ⟨0, 0, 0, 0⟩ 80, .v4 ⟨10, 0, 0, 1⟩ 8080, "tcp"⟩]
    routes := some [⟨⟨10, 1, 0, 0⟩, 16⟩]
    exitNodes := some [.v6 ⟨1⟩]
    flagsStruct := some { genDefaultFlags with
      relayNetworkWhitelist := "home office*", privateMode := true } }

theorem office_survives :
    ∃ config', (newFromConfig library 1 office).1.genConfig library 2 = .ok config' ∧
      Survives office ∧ Agrees (newFromConfig library 1 office).2 config' := by
  have survives : Survives office := by
    refine ⟨?_, ?_, ?_, ?_, ?_, rfl⟩
    · exact Option.some_ne_none _
    · exact List.nodup_singleton _
    · decide
    · decide
    · exact singleSpaced_iff.mpr (by decide +kernel)
  obtain ⟨config', generated⟩ : ∃ config',
      (newFromConfig library 1 office).1.genConfig library 2 = .ok config' :=
    exists_of_isOk (by decide +kernel)
  exact ⟨config', generated, survives,
    (agrees_iff_survives library 1 2 office generated).mpr survives⟩

/-- Listeners are not given, manual routes are an empty list, no network is relayed, and symmetric
hole punching is disabled. -/
def closed : Loader :=
  { TomlConfigLoader.default with
    portForward := some [⟨.v6 ⟨1⟩ 80 0 0, .v4 ⟨10, 0, 0, 1⟩ 8080, "tcp"⟩]
    routes := some []
    flagsStruct := some { genDefaultFlags with
      relayNetworkWhitelist := "", disableSymHolePunching := true } }

/-- None of that comes back, nor does the forward from an IPv6 address. -/
theorem closed_comes_back_open :
    ∃ config', (newFromConfig library 1 closed).1.genConfig library 2 = .ok config' ∧
      config'.getListeners = some [] ∧ config'.getRoutes = none ∧ config'.getPortForwards = [] ∧
      config'.getFlags.relayNetworkWhitelist = "*" ∧
      config'.getFlags.disableSymHolePunching = false ∧
      ¬ Agrees (newFromConfig library 1 closed).2 config' := by
  obtain ⟨config', generated⟩ : ∃ config',
      (newFromConfig library 1 closed).1.genConfig library 2 = .ok config' :=
    exists_of_isOk (by decide +kernel)
  refine ⟨config', generated, ?_⟩
  obtain ⟨id, hostname, stored, exported⟩ := newFromConfig_eq library 1 closed
  rw [exported] at generated ⊢
  have restored := genConfig_restores generated
  refine ⟨restored.listeners, restored.routes, restored.portForwards,
    restored.relayNetworkWhitelist, ?_, fun agrees => ?_⟩
  · have switches := restored.switches
    simp only [Flags.switches, List.cons.injEq] at switches
    simp [switches]
  · have routes := restored.routes.symm.trans agrees.routes
    cases routes

end Decimal

end PeerLink.Launcher
