import Dirigent.Machine
import Dirigent.LeaderElection.ConsensusModule
import Dirigent.LeaderElection.Cluster
import Dirigent.LeaderElection.Steps
import Dirigent.LeaderElection.Terms
import Dirigent.LeaderElection.Votes
import Dirigent.LeaderElection.Ledger
import Dirigent.LeaderElection.Safety
import Dirigent.DataPlane.Calls
import Dirigent.DataPlane.Locking
import Dirigent.DataPlane.MetricsLoop
import Dirigent.DataPlane.ColdStart
import Dirigent.DataPlane.Requests
import Dirigent.DataPlane.Drain
import Dirigent.Prog
import Dirigent.Protocol
import Dirigent.ControlPlane.Actions
import Dirigent.ControlPlane.Operations
import Dirigent.ControlPlane.Scaling
import Dirigent.ControlPlane.LockDiscipline
import Dirigent.Held
import Dirigent.LeaderElection.ApiServer
import Dirigent.LeaderElection.Forwarding
import Dirigent.LeaderElection.Announcements
import Dirigent.ControlPlane.Persistence
import Dirigent.ControlPlane.Atomicity
import Dirigent.ControlPlane.References
import Dirigent.ControlPlane.Allocation
import Dirigent.ControlPlane.Teardown
import Dirigent.ControlPlane.Fencing
import Dirigent.ControlPlane.Locking
import Dirigent.ControlPlane.ClosedChannel
import Dirigent.Autoscaling.LoadMetric
import Dirigent.Autoscaling.Window
import Dirigent.Autoscaling.Controller
import Dirigent.ControlPlane.Placement
import Dirigent.ControlPlane.NodeRemoval
import Dirigent.AsyncProxy.BufferedRequest
import Dirigent.AsyncProxy.Service
import Dirigent.AsyncProxy.Recovery
import Dirigent.AsyncProxy.Attempts
import Dirigent.AsyncProxy.Outcomes
import Dirigent.DataPlane.Throttling
import Dirigent.DataPlane.HAProxy
import Dirigent.DataPlane.Handlers
import Dirigent.WorkerNode.NetworkPool
import Dirigent.WorkerNode.Node
import Dirigent.WorkerNode.Lifecycle
import Dirigent.WorkerNode.Release
import Dirigent.WorkerNode.Inventory
import Dirigent.WorkerNode.Monitor
import Dirigent.WorkerNode.Reports
import Dirigent.WorkerNode.Networks
import Dirigent.WorkerNode.Atomicity
import Dirigent.ControlPlane.LockOrder
import Dirigent.Autoscaling.Averages
import Dirigent.Autoscaling.PanicMode
import Dirigent.PlacementPolicy.Kubernetes
import Dirigent.WorkerNode.IPManager
import Dirigent.ControlPlane.Upscaling
import Dirigent.ControlPlane.Reconstruction
import Dirigent.ControlPlane.Registry
import Dirigent.ControlPlane.Failover
import Dirigent.ControlPlane.EndpointRemoval
import Dirigent.WorkerNode.Backoff
import Dirigent.AsyncProxy.Retention
import Dirigent.DataPlane.LoadBalancing
