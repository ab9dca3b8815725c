import PeerLink.Acl.Stream
import PeerLink.Registry.Authorization
import PeerLink.Registry.Representation
import PeerLink.Manager.Origins
import PeerLink.Sync.Protocol
import PeerLink.Sync.Relearn
import PeerLink.Sync.Complete
import PeerLink.Sync.Trust
import PeerLink.Sync.Foreign
import PeerLink.Sync.Mirror
import PeerLink.Route.Costs
import PeerLink.Sync.Crash
import PeerLink.Sync.Initiator
import PeerLink.Acl.Restrictions
import PeerLink.Acl.Tracking
import PeerLink.Manager.Pieces
import PeerLink.Gateway.TcpReplies
import PeerLink.Gateway.UdpFlows
import PeerLink.Gateway.IcmpNat
import PeerLink.Manager.Connections
import PeerLink.Tunnel.UdpListener
import PeerLink.PeerCenter.Server
import PeerLink.Manager.ForeignRuns
import PeerLink.PeerCenter.Selection
import PeerLink.Manager.Hops
import PeerLink.Chain.NetworkInfo
import PeerLink.Rpc.Packets
import PeerLink.Route.DijkstraUsize
import PeerLink.Connector.Panics
import PeerLink.Connector.Commands
import PeerLink.Dns.Served
import PeerLink.Launcher.RoundTrip
import PeerLink.Manager.Encapsulation
import PeerLink.Acl.Eviction
import PeerLink.Stun.Resolver
import PeerLink.PeerCenter.CostUpdate
import PeerLink.Instance.Dhcp
import PeerLink.Tunnel.TunStream
import PeerLink.Tunnel.WgListener
import PeerLink.Connector.AliveUrls
import PeerLink.Portal.WireGuard
import PeerLink.Peers.PingResults
import PeerLink.Tunnel.WindowLatency
import PeerLink.Manager.TxCounters
import PeerLink.Tunnel.WgBuffer
import PeerLink.Connector.SrvRecords
import PeerLink.Sync.Delivery
