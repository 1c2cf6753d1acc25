import Corduit.Common.Cancel.Hooks
import Corduit.Common.Cancel.Waiters
import Corduit.Common.Lru.Runs
import Corduit.Common.Stream.Accounting
import Corduit.Common.Stream.HalfClose
import Corduit.Common.Timer.Cancel
import Corduit.Crypto.Blake2.Rfc
import Corduit.Crypto.ChaCha20Poly1305
import Corduit.Dns.EngineResolver
import Corduit.Engine.Inbound.Forward.Dechunking
import Corduit.Engine.Inbound.Forward.Requests
import Corduit.Engine.Inbound.MemDuplex.Wakeups
import Corduit.Engine.Mmdb.Pointers
import Corduit.Engine.Mmdb.Safety
import Corduit.Engine.Outbound.Fragments.Calls
import Corduit.Engine.Outbound.Fragments.Fresh
import Corduit.Engine.Outbound.Group.Rotation
import Corduit.Engine.Outbound.Hysteria2.Response
import Corduit.Engine.Outbound.Requests.Core
import Corduit.Engine.Outbound.Shadowsocks.RoundTrip
import Corduit.Engine.Outbound.Snell.Polls
import Corduit.Engine.Outbound.Ssr.Exact
import Corduit.Engine.Outbound.Ssr.Keystream
import Corduit.Engine.Outbound.Ssr.Places
import Corduit.Engine.Outbound.V2rayMux.Writing
import Corduit.Engine.Outbound.Vmess.UdpSession
import Corduit.Engine.Outbound.Vmess.UdpTable
import Corduit.Engine.Routing.References
import Corduit.Engine.Routing.Resolution
import Corduit.Engine.RuleEntries
import Corduit.Netstack.Dns.Echo
import Corduit.Netstack.FakeIp.Fifo
import Corduit.Netstack.Nat.Core
import Corduit.Netstack.Packet.Payload
import Corduit.Netstack.Packet.RoundTrip
import Corduit.Netstack.Stack.Closing
import Corduit.Netstack.Stack.Handshake
import Corduit.Netstack.Stack.Proxy
import Corduit.Netstack.Stack.Teardown
import Corduit.Netstack.Tcp.Budget
import Corduit.Netstack.Tcp.Future
import Corduit.Netstack.Tcp.HandOff
import Corduit.Netstack.Tcp.Stream
import Corduit.Protocol.Obfs.Http
import Corduit.Protocol.Obfs.Replies
import Corduit.Protocol.Quic.Connection.CryptoSend
import Corduit.Protocol.Quic.Connection.Duplicates
import Corduit.Protocol.Quic.Connection.Handshake
import Corduit.Protocol.Quic.Connection.Keys
import Corduit.Protocol.Quic.Connection.Limits
import Corduit.Protocol.Quic.Connection.Retry
import Corduit.Protocol.Quic.Connection.Tracking
import Corduit.Protocol.Quic.Send.Buffer
import Corduit.Protocol.Quic.Stream.Coverage
import Corduit.Protocol.Quic.Stream.Sweep
import Corduit.Protocol.Quic.Tls.ClientHello
import Corduit.Protocol.Quic.Tls.Flight
import Corduit.Protocol.Reality.Hook
import Corduit.Protocol.Tls13.Flight
import Corduit.Protocol.Tls13.ServerHello
import Corduit.Protocol.WireGuard.Rejection
import Corduit.Protocol.WireGuard.Specification
