import DhcpRelay.Loops
import DhcpRelay.Framing
import DhcpRelay.Decimal
import DhcpRelay.KeyedList
import DhcpRelay.Register
import DhcpRelay.Transition
import DhcpRelay.Bpf
import DhcpRelay.Slices
import DhcpRelay.Net
import DhcpRelay.Options
import DhcpRelay.OptionSlices
import DhcpRelay.RelayAgentInfo
import DhcpRelay.SubOptions
import DhcpRelay.CfgMatch
import DhcpRelay.MacPolicy
import DhcpRelay.PolicyFile
import DhcpRelay.PolicyGate
import DhcpRelay.Snapshots
import DhcpRelay.FileWatch
import DhcpRelay.Host
import DhcpRelay.IfCache
import DhcpRelay.LinkMap
import DhcpRelay.LinkFile
import DhcpRelay.Request
import DhcpRelay.RoundTrip
import DhcpRelay.FirstHop
import DhcpRelay.Reply
import DhcpRelay.Fanout
import DhcpRelay.UnicastAddress
import DhcpRelay.Handle
import DhcpRelay.Ownership
import DhcpRelay.Admission
import DhcpRelay.Filter
import DhcpRelay.Denial
import DhcpRelay.Stamp
import DhcpRelay.Hops
import DhcpRelay.Transparency
import DhcpRelay.DefaultPolicy
import DhcpRelay.Pool
import DhcpRelay.Chain
import DhcpRelay.WatchLife
import DhcpRelay.WatchConverges
import DhcpRelay.WatchReaders
import DhcpRelay.PolicyInForce
import DhcpRelay.LiveLinks
import DhcpRelay.Drain
import DhcpRelay.Handles
import DhcpRelay.RawSocket
import DhcpRelay.ReplySocket
import DhcpRelay.Exchange
import DhcpRelay.ServerCheck
import DhcpRelay.Drops
import DhcpRelay.Startup
import DhcpRelay.FreshTargets
