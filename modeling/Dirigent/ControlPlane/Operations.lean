import Dirigent.ControlPlane.Actions

/-!
# Operations of the control plane

The operations as programs over the storages' locks, line by line: which lock each takes, what it
does under it, and what it does on every error path.

* `registerDataplane`, `deregisterDataplane`, `registerNode`, `deregisterNode`, `nodeHeartbeat`,
  `registerService`, `deregisterService` — the API.
* `handleFailure`, `checkWorkerNodes` — failures.

The calls to all data planes in `singlethreadUpdateEndpoints`, which the source makes in parallel
and joins, are made one after another: each concerns a data plane of its own.
-/

namespace Dirigent.ControlPlane

open DataPlane (EndpointInfo)
open Prog

/-- The locks: of the three storages, of a controller's `EndpointLock`, of a node's endpoint map. -/
inductive Lock
  | niStorage | siStorage | dataPlaneConnections
  | endpointLock (c : ℕ)
  | endpointMap (n : ℕ)
  deriving DecidableEq, Repr

/-- What a goroutine may run. -/
inductive Op
  | registerDataplane (info : DataplaneInfo)
  | deregisterDataplane (info : DataplaneInfo)
  | registerNode (info : NodeInfo)
  | deregisterNode (nodeID : String)
  | nodeHeartbeat (nodeID : String)
  | registerService (info : ServiceInfo)
  | deregisterService (name : String)
  | handleFailure (failures : List Failure)
  /-- One round of `CheckPeriodicallyWorkerNodes`. -/
  | checkWorkerNodes
  | onMetricsReceive (name : String)
  | reconstructState
  | cleanControlPlaneInMemoryData
  | connectToWorker (n : ℕ)
  | precreateSnapshot (c n : ℕ)
  | scalingControllerLoop (c : ℕ)
  /-- `PFStateController.ScalingLoop`, first its beginning and then a round of its loop. -/
  | scalingLoop (c : ℕ)
  | scalingLoopRound (c : ℕ)
  /-- The inner loop that takes the last value from the channel. -/
  | takeLastValue (c : ℕ) (desired : ℤ) (isLoopRunning : Bool)
  | createSandbox (c : ℕ)
  /-- The goroutine of `doDownscaling`. -/
  | drainAndDelete (c : ℕ) (toEvict : List ℕ)
  | deleteVictim (e : ℕ)
  | reconstructWorker (n : ℕ)
  | reconstructService (info : ServiceInfo)
  | reconstructEndpointsState
  | reconstructEndpoint (e : EndpointRecord)
  deriving DecidableEq, Repr

abbrev Code := Prog Lock Act Op Act.Ans

abbrev call (a : Act) : Code a.Ans := perform a

/-! ## Data planes -/

/-- `singlethreadUpdateEndpoints` -/
def singlethreadUpdateEndpoints (c : ℕ) (endpoints : List EndpointInfo) : Code Unit := do
  let info : ServiceInfo ← call (.serviceInfo c)
  let ips : List String ← call .dataPlanes
  forM ips fun ip => do
    let _ ← call (.updateEndpointList ip info.name endpoints)

/-- `updateEndpoints` -/
def updateEndpoints (c : ℕ) (endpoints : List EndpointInfo) : Code Unit :=
  withLock .dataPlaneConnections (singlethreadUpdateEndpoints c endpoints)

/-- The loop over the services in `RegisterDataplane`. -/
def addDeployments (ip : String) : List ℕ → Code Reply
  | [] => pure { success := true }
  | c :: cs => do
    let info : ServiceInfo ← call (.serviceInfo c)
    let ok : Bool ← call (.addDeployment ip info.name)
    if ok then
      let es : List ℕ ← call (.getEndpoints c)
      let infos : List EndpointInfo ← call (.prepareEndpointInfo es)
      singlethreadUpdateEndpoints c infos
      addDeployments ip cs
    else
      call (.removeDataPlane ip)
      pure { success := false, err := some .dataPlane }

/-- `RegisterDataplane`; the second component says that the data plane was known. -/
def registerDataplane (info : DataplaneInfo) : Code (Reply × Bool) :=
  withLock .siStorage <| withLock .dataPlaneConnections do
    let present : Bool ← call (.hasDataPlane info.ip)
    if present then
      pure ({ success := true }, true)
    else
      let stored : Bool ← call (.storeDataPlaneInformation info)
      if stored then
        let connected : Bool ← call (.initializeDataPlaneConnection info)
        if connected then
          call (.setDataPlane info)
          let cs : List ℕ ← call .services
          let reply ← addDeployments info.ip cs
          pure (reply, false)
        else
          call (.removeDataPlane info.ip)
          pure ({ success := false, err := some .connection }, false)
      else
        call (.removeDataPlane info.ip)
        pure ({ success := false, err := some .persistence }, false)

/-- `DeregisterDataplane` -/
def deregisterDataplane (info : DataplaneInfo) : Code Reply :=
  withLock .siStorage <| withLock .dataPlaneConnections do
    let present : Bool ← call (.hasDataPlane info.ip)
    if present then
      let deleted : Bool ← call (.deleteDataPlaneInformation info.ip)
      if deleted then
        call (.removeDataPlane info.ip)
        pure { success := true }
      else
        pure { success := false, err := some .persistence }
    else
      pure { success := true }

/-! ## Nodes -/

/-- `RegisterNode` -/
def registerNode (info : NodeInfo) : Code Reply := do
  let wn : ℕ ← call (.newNode info)
  withLock .niStorage do
    let node : Option ℕ ← call (.getNode info.nodeID)
    if node.isSome then
      pure
        { success := false
          message := "Node registration failed. Node with the same name already exists." }
    else
      let stored : Bool ← call (.storeWorkerNodeInformation info)
      if stored then
        call (.setNode wn)
        start [.connectToWorker wn]
        call (.setSchedulability wn true)
        pure { success := true }
      else
        -- `NIStorage.AtomicRemove`
        withLock .niStorage (call (.removeNode info.nodeID))
        pure { success := false, err := some .persistence }

/-- `removeEndointsAssociatedWithNode` -/
def removeEndointsAssociatedWithNode (nodeID : String) : Code Unit :=
  withLock .siStorage do
    let cs : List ℕ ← call .services
    forM cs fun c => do
      lock (.endpointLock c)
      let removed : Option ℕ ← call (.excludeEndpointsOnNode c nodeID)
      match removed with
      | none => .halt
      | some k =>
        unlock (.endpointLock c)
        call (.addActualScale c (-(k : ℤ)))

/-- `DeregisterNode` -/
def deregisterNode (nodeID : String) : Code Reply :=
  withLock .niStorage do
    let node : Option ℕ ← call (.getNode nodeID)
    if node.isSome then
      let deleted : Bool ← call (.deleteWorkerNodeInformation nodeID)
      if deleted then
        removeEndointsAssociatedWithNode nodeID
        call (.removeNode nodeID)
        pure { success := true }
      else
        pure { success := false, err := some .persistence }
    else
      pure { success := false, message := "Node registration failed. Node doesn't exists." }

/-- `NIStorage.GetMap()[nodeID]`, whose method is called: a nil dereference if there is no node. -/
def getNodeNoCheck (nodeID : String) : Code ℕ := do
  let node : Option ℕ ← call (.getNode nodeID)
  match node with
  | none => .halt
  | some n => pure n

/-- `NodeHeartbeat`, which takes no lock and looks the node up for each update. -/
def nodeHeartbeat (nodeID : String) : Code Reply := do
  let node : Option ℕ ← call (.getNode nodeID)
  if node.isSome then
    -- `UpdateLastHearBeat`, `SetCpuUsage`, `SetMemoryUsage`
    let _ ← getNodeNoCheck nodeID
    let _ ← getNodeNoCheck nodeID
    let _ ← getNodeNoCheck nodeID
    let n ← getNodeNoCheck nodeID
    call (.setSchedulability n true)
    pure { success := true }
  else
    pure { success := false }

/-! ## Services -/

/-- The first half of `notifyDataplanesAndStartScalingLoop`; a failed call is not looked at. -/
def notifyDataplanes (name : String) : Code Unit :=
  withLock .dataPlaneConnections do
    let ips : List String ← call .dataPlanes
    forM ips fun ip => do
      let _ ← call (.addDeployment ip name)

/-- `notifyDataplanesAndStartScalingLoop`; it answers no error. -/
def notifyDataplanesAndStartScalingLoop (info : ServiceInfo) (reconstructFromPersistence : Bool) :
    Code (Option Error) := do
  notifyDataplanes info.name
  call (.setService info reconstructFromPersistence)
  let c : Option ℕ ← call (.getService info.name)
  match c with
  | none => .halt
  | some c =>
    start [.scalingControllerLoop c]
    pure none

/-- `precreateSnapshots` -/
def precreateSnapshots (info : ServiceInfo) : Code Unit :=
  withLock .siStorage do
    let c : Option ℕ ← call (.getService info.name)
    let ns : List ℕ ← call .nodes
    match c with
    | none => .halt
    | some c => startAndWait (ns.map (.precreateSnapshot c))

/-- `RegisterService` -/
def registerService (info : ServiceInfo) : Code Reply :=
  withLock .siStorage do
    let service : Option ℕ ← call (.getService info.name)
    if service.isSome then
      pure { success := false, err := some (.text "service is already registered") }
    else
      let stored : Bool ← call (.storeServiceInformation info)
      if stored then
        let err ← notifyDataplanesAndStartScalingLoop info false
        if err.isSome then
          withLock .siStorage (call (.removeService info.name))
          pure { success := false, err := err }
        else
          let precreate : Bool ← call .precreateSnapshots
          if precreate then
            precreateSnapshots info
            pure { success := true }
          else
            pure { success := true }
      else
        -- `SIStorage.AtomicRemove`
        withLock .siStorage (call (.removeService info.name))
        pure { success := false, err := some .persistence }

/-- The loop over the data planes in `removeServiceFromDataplane`: it stops at the first error. -/
def deleteDeployments (name : String) : List String → Code Bool
  | [] => pure true
  | ip :: ips => do
    let ok : Bool ← call (.deleteDeployment ip name)
    if ok then deleteDeployments name ips else pure false

/-- `removeServiceFromDataplane`: an error leaves with the lock held. -/
def removeServiceFromDataplane (name : String) : Code (Option Error) := do
  lock .dataPlaneConnections
  let ips : List String ← call .dataPlanes
  let ok ← deleteDeployments name ips
  if ok then
    unlock .dataPlaneConnections
    pure none
  else
    pure (some .dataPlane)

/-- `DeregisterService` -/
def deregisterService (name : String) : Code Reply :=
  withLock .siStorage do
    let service : Option ℕ ← call (.getService name)
    match service with
    | some c =>
      let deleted : Bool ← call (.deleteServiceInformation name)
      if deleted then
        let err ← removeServiceFromDataplane name
        if err.isSome then
          pure { success := false, err := err }
        else
          call (.closeChannel c)
          call (.removeService name)
          pure { success := true }
      else
        pure { success := false, err := some .persistence }
    | none => pure { success := false, err := some (.text "service is not registered") }

/-! ## Failures -/

/-- `removeEndpointFromWNStruct`. The receiver of the deferred `Unlock` is looked up when the
`defer` is reached; a node that is no longer in the storage is a nil dereference. -/
def removeEndpointFromWNStruct (e : ℕ) : Code Unit := do
  let endpoint : Endpoint ← call (.getEndpoint e)
  match endpoint.node with
  | none => pure ()
  | some wn =>
    let info : NodeInfo ← call (.nodeInfo wn)
    let node : Option ℕ ← call (.getNode info.nodeID)
    match node with
    | none => .halt
    | some n =>
      lock (.endpointMap n)
      let deferred : Option ℕ ← call (.getNodeToUnlock info.nodeID n)
      match deferred with
      | none => .halt
      | some d =>
        let node : Option ℕ ← call (.getNode info.nodeID)
        match node with
        | none => .halt
        | some m =>
          call (.endpointMapRemove m e)
          unlock (.endpointMap d)

/-- The loop over the reported ids in `removeEndpoints`; `toRemove` is a set. -/
def collectEndpoints (c : ℕ) : List String → List ℕ → Code (List ℕ)
  | [], toRemove => pure toRemove
  | cid :: cids, toRemove => do
    let found : Option ℕ ← call (.searchEndpoint c cid)
    match found with
    | none => collectEndpoints c cids toRemove
    | some e =>
      removeEndpointFromWNStruct e
      collectEndpoints c cids (toRemove.insert e)

/-- `removeEndpoints` -/
def removeEndpoints (c : ℕ) (cids : List String) : Code Unit :=
  withLock (.endpointLock c) do
    let toRemove ← collectEndpoints c cids []
    call (.addActualScale c (-(toRemove.length : ℤ)))
    call (.excludeEndpoints c toRemove)
    let es : List ℕ ← call (.getEndpoints c)
    let infos : List EndpointInfo ← call (.prepareEndpointInfo es)
    updateEndpoints c infos

/-- The first branch of `HandleFailure`. The service is looked up without the lock of `SIStorage`.
-/
def handleSandboxFailure (failure : Failure) : Code Unit := do
  let service : Option ℕ ← call (.getService failure.serviceName)
  match service with
  | some c => removeEndpoints c failure.sandboxIDs
  | none => pure ()

/-- `HandleFailure` -/
def handleFailure (failures : List Failure) : Code Unit :=
  forM failures fun failure =>
    match failure.type with
    | .sandboxFailure | .workerNodeFailure => handleSandboxFailure failure
    | .sandboxDaemonFailure => pure ()

/-- `getServicesOnWorkerNode` -/
def getServicesOnWorkerNode (n : ℕ) : Code (List String) := do
  let info : NodeInfo ← call (.nodeInfo n)
  let toRemove : Option ℕ ← withRLock .niStorage (call (.getNode info.nodeID))
  match toRemove with
  | none => pure []
  | some m => withRLock (.endpointMap m) (call (.endpointMapIDs m))

/-- The loop over the services in `createWorkerNodeFailureEvents`. -/
def failuresOf (n : ℕ) : List ℕ → Code (List Failure)
  | [] => pure []
  | c :: cs => do
    let info : ServiceInfo ← call (.serviceInfo c)
    let ids ← getServicesOnWorkerNode n
    let rest ← failuresOf n cs
    if ids.isEmpty then pure rest else pure (⟨.workerNodeFailure, info.name, ids⟩ :: rest)

/-- `createWorkerNodeFailureEvents` -/
def createWorkerNodeFailureEvents (n : ℕ) : Code (List Failure) :=
  withLock .siStorage do
    let cs : List ℕ ← call .services
    failuresOf n cs

/-- The loop over the nodes in `CheckPeriodicallyWorkerNodes`. -/
def checkNodes : List ℕ → Code (List Failure)
  | [] => pure []
  | n :: ns => do
    call (.setSchedulability n true)
    let missed : Bool ← call (.heartbeatMissed n)
    if missed then
      let events ← createWorkerNodeFailureEvents n
      call (.setSchedulability n false)
      let rest ← checkNodes ns
      pure (events ++ rest)
    else checkNodes ns

/-- One round of `CheckPeriodicallyWorkerNodes`. -/
def checkWorkerNodes : Code Unit := do
  let events ← withLock .niStorage do
    let ns : List ℕ ← call .nodes
    checkNodes ns
  handleFailure events

end Dirigent.ControlPlane
