import Yass.Net.IoBuffer
import Yass.Crypto.Crypter
import Yass.Crypto.KeySchedule
import Yass.Lib.Framing
import Yass.Net.Cipher
import Yass.Net.CipherFrames
import Yass.Net.CipherRoundTrip
import Yass.Net.NonceUnique
import Yass.Net.CipherIntegrity
import Yass.Lib.Run
import Yass.Lib.Staged
import Yass.Net.CipherWire
import Yass.Net.SsRequest
import Yass.Server.Shadowsocks
import Yass.Net.HttpRequest
import Yass.Net.Socks5Request
import Yass.Net.Socks4Request
import Yass.Server.Handshake
import Yass.Net.Padding
import Yass.Server.Http2
import Yass.Server.Authentication
import Yass.Net.ContentServer
import Yass.Net.Accounting
import Yass.Net.DnsResolver
import Yass.Cli.KeepAlive
import Yass.Cli.KeepAliveRuns
import Yass.Server.StreamIsolation
import Yass.Net.IoQueue
import Yass.Net.Pipe
import Yass.Net.PaddedStream
import Yass.Server.Relay
import Yass.Server.RelayMoves
import Yass.Cli.Relay
import Yass.Cli.RelayMoves
import Yass.RelayOrder
import Yass.PaddedTunnel
import Yass.Destinations
import Yass.RequestCodecs
import Yass.Cli.Handshake
import Yass.Cli.KeepAliveCount
import Yass.Cli.KeepAliveErrors
import Yass.Lib.LastWins
import Yass.Net.HttpHeaders
import Yass.Cli.ChannelState
import Yass.Net.Listeners
import Yass.Net.Stop
import Yass.Net.Listening
import Yass.Cli.Replies
import Yass.Cli.Segmentation
import Yass.UpstreamOrder
import Yass.Lib.Orbit
import Yass.Net.DnsQuery
import Yass.Net.DnsResponse
import Yass.Net.DnsNames
import Yass.Net.DnsBounds
import Yass.Net.DnsAnswers
import Yass.Net.DnsExchange
import Yass.Lib.Resume
import Yass.Net.Resumption
import Yass.Reassembly
import Yass.Server.Backpressure
import Yass.Backpressure
import Yass.Cli.Pipelining
import Yass.Config.RateFlag
import Yass.Net.QueueRuns
import Yass.Lib.Lru
import Yass.Net.FrameSource
import Yass.Net.SessionCache
import Yass.Cli.Upload
import Yass.Net.StreamConnect
import Yass.Net.TlsShutdown
import Yass.Config.SaveConfig
import Yass.Net.RateLimit
import Yass.Core.Paths
import Yass.Crypto.KeySpec
import Yass.Net.BufferRuns
import Yass.Net.CaBundle
import Yass.Net.EncryptAppends
import Yass.Net.ExplicitKey
import Yass.CipherTunnel
