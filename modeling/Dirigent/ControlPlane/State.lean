import Dirigent.Prog
import Dirigent.DataPlane.FunctionMetadata
import Mathlib.Data.List.AList

/-!
# The state of the control plane

The three storages, the objects they point to, the persistence layer, and what the data planes
list for each function. Objects live in heaps and are known by their number: a goroutine keeps its
pointer to a node, a service or an endpoint after a storage has dropped it.

An access that a goroutine makes in one step is an action. What the environment decides (the
outcome of a call, the order in which Go walks a map, random draws, clocks) is in the `Choice` of
the step.

Counts are integers here where the source has `int` and `int64`. `ActualScale` is the desired count
of the last round, which `KnativeScaling` clamps to the `int32` bounds of the configuration, changed
by numbers of endpoints: neither it nor the differences that `ScalingControllerLoop` takes can wrap.

Left out: log lines, tracing, time stamps, the load a node reports, and the metrics from which the
autoscaler computes the desired scale, which may be any number.
-/

namespace Dirigent.ControlPlane

open DataPlane (EndpointInfo)

/-! ## Messages -/

structure DataplaneInfo where
  ip : String
  apiPort : ℕ
  proxyPort : ℕ
  deriving DecidableEq, Repr

structure NodeInfo where
  nodeID : String
  ip : String
  port : ℕ
  cpuCores : ℕ
  memorySize : ℕ
  deriving DecidableEq, Repr

/-- `proto.ServiceInfo` without `PortForwarding` and `AutoscalingConfig`, which the operations pass
on whole and do not look at. -/
structure ServiceInfo where
  name : String
  image : String
  requestedCpu : ℕ
  requestedMemory : ℕ
  deriving DecidableEq, Repr

inductive FailureType
  | sandboxFailure | sandboxDaemonFailure | workerNodeFailure
  deriving DecidableEq, Repr

structure Failure where
  type : FailureType
  serviceName : String
  sandboxIDs : List String
  deriving DecidableEq, Repr

/-- `proto.Endpoint`: what a worker says about a sandbox it runs. -/
structure EndpointRecord where
  sandboxID : String
  hostPort : ℤ
  nodeName : String
  serviceName : String
  deriving DecidableEq, Repr

inductive Error
  | persistence | connection | dataPlane
  | text (message : String)
  deriving DecidableEq, Repr

/-- `proto.ActionStatus` with the error that goes with it. -/
structure Reply where
  success : Bool
  message : String := ""
  err : Option Error := none
  deriving DecidableEq, Repr

/-! ## Objects -/

structure Endpoint where
  sandboxID : String
  url : String
  node : Option ℕ
  hostPort : ℤ
  deriving DecidableEq, Repr

structure WorkerNode where
  info : NodeInfo
  connected : Bool := false
  schedulable : Bool := false
  /-- From endpoints to the names of their services. -/
  endpointMap : AList fun _ : ℕ => String

/-- `StopCh` of a controller, a channel with room for one value. -/
inductive StopCh
  | absent | empty | full | closed
  deriving DecidableEq, Repr

/-- `ServiceInfoStorage` with its `PFStateController`. -/
structure Service where
  info : ServiceInfo
  /-- `StartTime` is set, which it is where the service was read from persistence. -/
  reconstructed : Bool
  endpoints : List ℕ := []
  actualScale : ℤ := 0
  autoscalingRunning : Bool := false
  stopCh : StopCh := .absent
  /-- What a goroutine is sending on `DesiredStateChannel`, which has no buffer. -/
  offer : Option ℤ := none
  channelClosed : Bool := false
  deriving DecidableEq, Repr

/-- `ControlPlane` with the persistence layer and the data planes it talks to. -/
structure State where
  precreateSnapshots : Bool
  endpointPersistence : Bool
  dataPlaneConnections : AList fun _ : String => DataplaneInfo
  niStorage : AList fun _ : String => ℕ
  siStorage : AList fun _ : String => ℕ
  /-- The objects; those from the counter on do not exist yet. -/
  nodes : ℕ → WorkerNode
  nodeCount : ℕ
  services : ℕ → Service
  serviceCount : ℕ
  endpoints : ℕ → Endpoint
  endpointCount : ℕ
  /-- The records of the persistence layer. -/
  storedDataPlanes : AList fun _ : String => DataplaneInfo
  storedWorkers : AList fun _ : String => NodeInfo
  storedServices : AList fun _ : String => ServiceInfo
  /-- What the data plane at an address lists for a function it has been told about. -/
  deployments : String → String → Option (List EndpointInfo)
  /-- The API server has replaced this control plane by a new one. -/
  discarded : Bool

/-- `NewControlPlane` on an empty store, with the configuration left open. -/
def newControlPlane (precreateSnapshots endpointPersistence : Bool) : State where
  precreateSnapshots := precreateSnapshots
  endpointPersistence := endpointPersistence
  dataPlaneConnections := ∅
  niStorage := ∅
  siStorage := ∅
  nodes := fun _ => { info := ⟨"", "", 0, 0, 0⟩, endpointMap := ∅ }
  nodeCount := 0
  services := fun _ => { info := ⟨"", "", 0, 0⟩, reconstructed := false }
  serviceCount := 0
  endpoints := fun _ => ⟨"", "", none, 0⟩
  endpointCount := 0
  storedDataPlanes := ∅
  storedWorkers := ∅
  storedServices := ∅
  deployments := fun _ _ => none
  discarded := false

namespace State

def modifyNode (s : State) (n : ℕ) (f : WorkerNode → WorkerNode) : State :=
  { s with nodes := Function.update s.nodes n (f (s.nodes n)) }

def modifyService (s : State) (c : ℕ) (f : Service → Service) : State :=
  { s with services := Function.update s.services c (f (s.services c)) }

/-- Change what the data plane at `ip` lists for the function `name`. -/
def setDeployment (s : State) (ip name : String) (es : Option (List EndpointInfo)) :
    State :=
  { s with
    deployments :=
      Function.update s.deployments ip (Function.update (s.deployments ip) name es) }

/-- `prepareEndpointInfo` -/
def prepareEndpointInfo (s : State) (es : List ℕ) : List EndpointInfo :=
  es.map fun e => ⟨(s.endpoints e).sandboxID, (s.endpoints e).url⟩

/-- `searchEndpointByContainerName` -/
def searchEndpointByContainerName (s : State) (es : List ℕ) (cid : String) : Option ℕ :=
  es.find? fun e => (s.endpoints e).sandboxID = cid

/-- The name of an endpoint's node. -/
def nodeName (s : State) (e : ℕ) : Option String :=
  (s.endpoints e).node.map fun n => (s.nodes n).info.nodeID

end State

/-- `excludeEndpoints` -/
def excludeEndpoints (endpoints toExclude : List ℕ) : List ℕ :=
  endpoints.filter fun e => e ∉ toExclude

/-- `EvictionPolicy` with its random draw. -/
def evictionPolicy (draw : ℕ) (endpoints : List ℕ) : Option (ℕ × List ℕ) :=
  endpoints[draw % endpoints.length]?.map fun e =>
    (e, endpoints.eraseIdx (draw % endpoints.length))

/-- The eviction loop of `doDownscaling`: `n` draws from a shrinking copy of the list. -/
def victims : ℕ → List ℕ → List ℕ → List ℕ → List ℕ
  | 0, _, _, toEvict => toEvict
  | n + 1, draws, currentState, toEvict =>
    match evictionPolicy (draws.headD 0) currentState with
    | none => victims n draws.tail currentState toEvict
    | some (e, newState) => victims n draws.tail newState (toEvict.insert e)

/-- `removeEndpoints` of the data plane, on what it lists: for each entry of the patch, the first
entry with its URL goes. -/
def drained (patch : List EndpointInfo) (listed : List EndpointInfo) : List EndpointInfo :=
  patch.foldl (fun es info => es.eraseP fun e => e.url = info.url) listed

end Dirigent.ControlPlane
