import P2pa.Support.Machine
import P2pa.Support.Leases
import P2pa.Support.Dns
import P2pa.Support.Batch
import P2pa.Support.Fifo
import P2pa.Utils.Growth
import P2pa.Utils.Subscribers
import P2pa.Dht.Run
import P2pa.Dht.Bootstrap
import P2pa.Dht.Drain
import P2pa.Dht.Puts
import P2pa.Dht.Poll
import P2pa.Gossip.Behaviour
import P2pa.Gossip.Duplicates
import P2pa.Gossip.Poll
import P2pa.Gossip.Subscriptions
import P2pa.Rendezvous.Behaviour
import P2pa.Rendezvous.Cookies
import P2pa.Rendezvous.Discoveries
import P2pa.Rendezvous.Poll
import P2pa.Rendezvous.Registrations
import P2pa.Rendezvous.Ticks
import P2pa.Wrappers
import P2pa.Timers
import P2pa.Mdns.Iface.Dns
import P2pa.Mdns.Iface.Query
import P2pa.Mdns.Iface.Records
import P2pa.Mdns.Iface.RoundTrip
import P2pa.Mdns.Behaviour
import P2pa.Mdns.Discovery
import P2pa.Mdns.Config
import P2pa.Mdns.Iface.State
import P2pa.Mdns.Iface.Buffers
import P2pa.Mdns.Iface.Wakeup
import P2pa.Mdns.Iface.Lengths
import P2pa.Mdns.Iface.Size
import P2pa.Mdns.Iface.Isolation
import P2pa.Node.Inner
import P2pa.Node.EventLoop
import P2pa.Node.Messages
import P2pa.Node.Shutdown
import P2pa.Node.Survival
import P2pa.Node.Announce
import P2pa.Node.Atomicity
import P2pa.Mdns.Iface.Probing
import P2pa.Mdns.Iface.Ticks
import P2pa.Mdns.Iface.Qname
import P2pa.Mdns.Interfaces
import P2pa.Node.SpinUp
import P2pa.Mdns.Iface.Limits
import P2pa.Mdns.Iface.Decoding
import P2pa.Mdns.Iface.Texts
import P2pa.Mdns.Iface.Panics
import P2pa.Dht.Gets
import P2pa.Dht.Ledger
import P2pa.Dht.Retries
import P2pa.Node.Relay
import P2pa.Node.Listening
import P2pa.Node.Closing
import P2pa.Mdns.Iface.Overheard
import P2pa.Mdns.Network.Completeness
import P2pa.Mdns.Network.Traffic
import P2pa.Node.Whole.Gossip
import P2pa.Node.Whole.Provenance
import P2pa.Node.Whole.Publish
import P2pa.Dht.Bootnodes
import P2pa.Dht.Refine
import P2pa.Node.Callbacks
import P2pa.Node.Whole.Records
import P2pa.Node.Whole.StartUp
import P2pa.Mdns.Expiry
import P2pa.Utils.Spacing
import P2pa.Node.Whole.Rounds
import P2pa.Node.Whole.Build
