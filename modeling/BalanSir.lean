import BalanSir.Common.Ipc
import BalanSir.Control.Cycles
import BalanSir.Executor.Teardown
import BalanSir.Executor.ForwardChain
import BalanSir.Executor.CakeOptions
import BalanSir.Executor.Interface
import BalanSir.Vpn.UriRoundTrip
import BalanSir.Vpn.Identity
import BalanSir.Vpn.HostNames
import BalanSir.Xray.Convergence
import BalanSir.Xray.Exhaustion
import BalanSir.Xray.Failover
import BalanSir.Xray.Restarts
import BalanSir.Vpn.Timing
import BalanSir.Dns.Answers
import BalanSir.Ota.CrashSafety
import BalanSir.B4.OptionList
import BalanSir.B4.Fragments
import BalanSir.B4.Categories
import BalanSir.B4.Handshake
import BalanSir.B4.Delivery
import BalanSir.B4.PathMtu
import BalanSir.B4.Probes
import BalanSir.B4.HostStack
import BalanSir.B4.FakeQuic
import BalanSir.Daemon.Matching
import BalanSir.Daemon.Rollback
import BalanSir.Daemon.FailClosed
import BalanSir.Daemon.Startup
import BalanSir.Daemon.Inventory
import BalanSir.Daemon.Order
import BalanSir.Daemon.Interleaving
import BalanSir.Daemon.Qos
import BalanSir.Daemon.PathDecision
import BalanSir.Api.Drift
import BalanSir.Upnp.Calls
import BalanSir.Api.Webui
import BalanSir.Daemon.L2Probe
import BalanSir.Dns.Cache
import BalanSir.Dns.Relay
import BalanSir.Image.Elf
import BalanSir.Upnp.Http
import BalanSir.Upnp.LanSubnet
