import TunnelFleet.Address.Socket
import TunnelFleet.ChangeKey
import TunnelFleet.Endpoint
import TunnelFleet.Main
import TunnelFleet.Object.Reader
import TunnelFleet.Timeline.Reader
import TunnelFleet.Watch.Reflection
import TunnelFleet.Watch.Session
import TunnelFleet.Proofs.Allocation.Search
import TunnelFleet.Proofs.Allocation.Text
import TunnelFleet.Proofs.Dict
import TunnelFleet.Proofs.Ledger.Basic
import TunnelFleet.Proofs.Tick.Calls
import TunnelFleet.Proofs.Tick.Convergence
import TunnelFleet.Proofs.Tick.ChangeKey
import TunnelFleet.Proofs.Ledger.Safety
import TunnelFleet.Proofs.Peers.Install
import TunnelFleet.Proofs.Peers.Lines
import TunnelFleet.Proofs.Ledger.Routes
import TunnelFleet.Proofs.Ledger.Retry
import TunnelFleet.Proofs.Ledger.Tunnels
import TunnelFleet.Proofs.Counters
import TunnelFleet.Proofs.Tick.Mode
import TunnelFleet.Proofs.Timeline.Settle
import TunnelFleet.Proofs.Tick.FollowUp
import TunnelFleet.Proofs.Tick.Order
import TunnelFleet.Proofs.Tick.Failures
import TunnelFleet.Proofs.Tick.Exhaustion
import TunnelFleet.Proofs.Tick.Approvals
import TunnelFleet.Proofs.Tick.Paths
import TunnelFleet.Proofs.Peers.Choice
import TunnelFleet.Proofs.Peers.Upkeep
import TunnelFleet.Proofs.Timeline.Noise
import TunnelFleet.Proofs.Networking.Layout
import TunnelFleet.Proofs.Allocation.Capacity
import TunnelFleet.Proofs.Tick.Endpoint
import TunnelFleet.Proofs.Peers.Identity
import TunnelFleet.Proofs.Timeline.Sequential
import TunnelFleet.Proofs.Allocation.Alignment
import TunnelFleet.Proofs.Allocation.ReadBack
import TunnelFleet.Proofs.Tick.Columns
import TunnelFleet.Proofs.Allocation.Layout
import TunnelFleet.Proofs.Peers.Mention
import TunnelFleet.Proofs.Key.Secret
import TunnelFleet.Proofs.Address.Intersection
import TunnelFleet.Proofs.ChangeKey
import TunnelFleet.Proofs.Timeline.Bursts
import TunnelFleet.Proofs.Watch.Feed
