import Dirigent.ControlPlane.Operations

/-!
# The scaling loop, the autoscaler and reconstruction

`ScalingControllerLoop` with the goroutines that create and delete sandboxes, the autoscaler that
sends it the desired scale, and `ReconstructState` with its goroutines. `controlPlane` puts all
operations together: the goroutines of any number of calls and services, in any interleaving.
-/

namespace Dirigent.ControlPlane

open DataPlane (EndpointInfo)
open Prog

/-- A call through the connection to worker `n`, which is a nil dereference where there is none. -/
def onWorker {α : Type} (n : ℕ) (p : Code α) : Code α := do
  let connected : Bool ← call (.isConnected n)
  if connected then p else .halt

/-- The goroutine of `precreateSnapshots`. -/
def precreateSnapshot (c n : ℕ) : Code Unit := do
  let info : ServiceInfo ← call (.serviceInfo c)
  let sandboxInfo : Option (String × ℤ) ← onWorker n (call (.createSandbox n info))
  match sandboxInfo with
  | none => pure ()
  | some (id, hostPort) =>
    let _ ← onWorker n (call (.deleteSandbox n id hostPort))

/-! ## Upscaling -/

/-- `ApplyPlacementPolicy`; the number of nodes is read under a read lock of its own. -/
def applyPlacementPolicy : Code (Option ℕ) :=
  withRLock .niStorage do
    let count : ℕ ← withRLock .niStorage (call .nodeCount)
    if count = 0 then pure none else call .place

/-- An endpoint as `doUpscaling` and the reconstruction build it. -/
def endpointOf (sandboxID : String) (hostPort : ℤ) (n : ℕ) (info : NodeInfo) : Endpoint :=
  ⟨sandboxID, info.ip ++ ":" ++ toString hostPort, some n, hostPort⟩

/-- `NIStorage.AtomicGetNoCheck(name).GetEndpointMap().AtomicSet(e, service)` -/
def addEndpointToWNStruct (name : String) (e : ℕ) (service : String) : Code Unit := do
  let node : Option ℕ ← withRLock .niStorage (call (.getNode name))
  match node with
  | none => .halt
  | some m => withLock (.endpointMap m) (call (.endpointMapSet m e service))

/-- The goroutine of `doUpscaling`. -/
def createSandbox (c : ℕ) : Code Unit := do
  let node ← applyPlacementPolicy
  match node with
  | none => call (.addActualScale c (-1))
  | some n =>
    let info : ServiceInfo ← call (.serviceInfo c)
    let resp : Option (String × ℤ) ← onWorker n (call (.createSandbox n info))
    match resp with
    | none => call (.addActualScale c (-1))
    | some (id, hostPort) =>
      let wn : NodeInfo ← call (.nodeInfo n)
      let persist : Bool ← call .endpointPersistence
      if persist then
        let _ ← call (.storeEndpoint (endpointOf id hostPort n wn))
      let e : ℕ ← call (.newEndpoint (endpointOf id hostPort n wn))
      addEndpointToWNStruct wn.nodeID e info.name
      let seen : List ℕ ← call (.getEndpoints c)
      call (.setEndpoints c seen e)
      let infos : List EndpointInfo ← call (.prepareEndpointInfo [e])
      updateEndpoints c infos

/-- `doUpscaling` -/
def doUpscaling (c toCreateCount : ℕ) : Code Unit :=
  startAndWait (List.replicate toCreateCount (.createSandbox c))

/-! ## Downscaling -/

/-- `drainSandbox`: the calls are started under the lock and made after it is released. -/
def drainSandbox (c : ℕ) (toEvict : List ℕ) : Code Unit := do
  let info : ServiceInfo ← call (.serviceInfo c)
  let infos : List EndpointInfo ← call (.prepareEndpointInfo toEvict)
  let ips : List String ← withLock .dataPlaneConnections (call .dataPlanes)
  forM ips fun ip => do
    let _ ← call (.drainSandbox ip info.name infos)

/-- The goroutine of `doDownscaling`. -/
def drainAndDelete (c : ℕ) (toEvict : List ℕ) : Code Unit := do
  drainSandbox c toEvict
  startAndWait (toEvict.map .deleteVictim)

/-- `deleteSandbox` -/
def deleteSandbox (e : ℕ) : Code Unit := do
  let key : Endpoint ← call (.getEndpoint e)
  match key.node with
  | none => pure ()
  | some n =>
    let _ ← onWorker n (call (.deleteSandbox n key.sandboxID key.hostPort))

/-- The goroutine for one victim. -/
def deleteVictim (e : ℕ) : Code Unit := do
  deleteSandbox e
  removeEndpointFromWNStruct e

/-- `doDownscaling`. The difference does not wrap; `downscale` says what becomes of one that does.
-/
def doDownscaling (c : ℕ) (actualScale desiredCount : ℤ) : Code Unit := do
  let toEvict : List ℕ ← call (.evict c (actualScale - desiredCount).toNat)
  start [.drainAndDelete c toEvict]

/-! ## The loop -/

/-- A round of `ScalingControllerLoop` after the inner loop. -/
def scale (c : ℕ) (desiredCount : ℤ) (isLoopRunning : Bool) : Code Unit := do
  let actualScale : ℤ ← call (.swapActualScale c desiredCount)
  if isLoopRunning then
    withLock (.endpointLock c) do
      if actualScale < desiredCount then
        doUpscaling c (desiredCount - actualScale).toNat
      else
        let disabled : Bool ← call (.isDownScalingDisabled c actualScale desiredCount)
        if !disabled && desiredCount < actualScale then
          doDownscaling c actualScale desiredCount
    .jump (.scalingControllerLoop c)
  else
    withLock (.endpointLock c) (doDownscaling c actualScale 0)

/-- The inner loop of `ScalingControllerLoop`: while there is a value, take it. -/
def takeLastValue (c : ℕ) (desiredCount : ℤ) (isLoopRunning : Bool) : Code Unit := do
  let value : Option (ℤ × Bool) ← call (.tryReceive c)
  match value with
  | some (n, running) => .jump (.takeLastValue c n running)
  | none => scale c desiredCount isLoopRunning

/-- A round of `ScalingControllerLoop`. -/
def scalingControllerLoop (c : ℕ) : Code Unit := do
  let (n, running) ← (call (.receive c) : Code (ℤ × Bool))
  .jump (.takeLastValue c n running)

/-! ## The autoscaler -/

/-- `PFStateController.Start` -/
def startAutoscaling (c : ℕ) : Code Unit := do
  let swapped : Bool ← call (.casAutoscaling c)
  if swapped then
    call (.makeStopCh c)
    start [.scalingLoop c]
  else pure ()

/-- `PFStateController.Stop` -/
def stopAutoscaling (c : ℕ) : Code Unit := do
  let running : Bool ← call (.loadAutoscaling c)
  if running then
    let sent : Bool ← call (.sendStop c)
    if sent then pure () else .halt
  else pure ()

/-- `stopAutoscalingLoop` -/
def stopAutoscalingLoop (c : ℕ) : Code Unit := do
  call (.clearAutoscaling c)
  let closed : Bool ← call (.closeStopCh c)
  if closed then call (.dropStopCh c) else .halt

/-- `scalingCycle`: compute the desired scale and send it. -/
def scalingCycle (c : ℕ) (isScaleFromZero : Bool) : Code Bool := do
  let desiredScale : ℤ ← call (.knativeScaling c isScaleFromZero)
  let offered : Bool ← call (.offer c desiredScale)
  if offered then
    let taken : Bool ← call (.awaitTaken c)
    if taken then
      if desiredScale = 0 then
        stopAutoscalingLoop c
        pure true
      else pure false
    else .halt
  else .halt

/-- `PFStateController.ScalingLoop` up to its loop. -/
def scalingLoop (c : ℕ) : Code Unit := do
  let toStop ← scalingCycle c true
  if toStop then pure () else .jump (.scalingLoopRound c)

/-- A round of the loop of `PFStateController.ScalingLoop`. -/
def scalingLoopRound (c : ℕ) : Code Unit := do
  let tick : Bool ← call (.selectTick c)
  if tick then
    let toStop ← scalingCycle c false
    if toStop then pure () else .jump (.scalingLoopRound c)
  else stopAutoscalingLoop c

/-- `OnMetricsReceive` -/
def onMetricsReceive (name : String) : Code Reply := do
  let storage : Option ℕ ← withRLock .siStorage (call (.getService name))
  match storage with
  | none => pure { success := false }
  | some c =>
    startAutoscaling c
    pure { success := true }

/-- `StopAllScalingLoops` -/
def stopAllScalingLoops : Code Unit :=
  withLock .siStorage do
    let cs : List ℕ ← call .services
    forM cs stopAutoscaling

/-- `CleanControlPlaneInMemoryData` of the API server. -/
def cleanControlPlaneInMemoryData : Code Unit := do
  stopAllScalingLoops
  call .replaceControlPlane

/-! ## Reconstruction -/

/-- The loop of `reconstructDataplaneState`; a failed connection is not looked at. -/
def reconstructDataplanes (infos : List DataplaneInfo) : Code Unit :=
  forM infos fun info => do
    let _ ← call (.initializeDataPlaneConnection info)
    call (.setDataPlane info)

/-- The loop of `reconstructWorkersState`. -/
def reconstructWorkers (infos : List NodeInfo) : Code Unit :=
  forM infos fun info => do
    let wn : ℕ ← call (.newNode info)
    start [.reconstructWorker wn]

/-- The goroutine of `reconstructWorkersState`. -/
def reconstructWorker (wn : ℕ) : Code Unit := do
  let connected : Bool ← call (.connectToWorker wn)
  if connected then withLock .niStorage (call (.setNode wn)) else pure ()

/-- The goroutine of `reconstructServiceState`. -/
def reconstructService (info : ServiceInfo) : Code Unit :=
  withLock .siStorage do
    let _ ← notifyDataplanesAndStartScalingLoop info true

/-- The first loop of `reconstructEndpointsState`; a failed call gives a nil list. -/
def listAllEndpoints : List ℕ → Code (List EndpointRecord)
  | [] => pure []
  | n :: ns => do
    let list : Option (List EndpointRecord) ← call (.listEndpoints n)
    match list with
    | none => .halt
    | some es =>
      let rest ← listAllEndpoints ns
      pure (es ++ rest)

/-- The goroutine of `reconstructEndpointsState`. -/
def reconstructEndpoint (endpoint : EndpointRecord) : Code Unit := do
  let node : Option ℕ ← withRLock .niStorage (call (.getNode endpoint.nodeName))
  match node with
  | none => pure ()
  | some n =>
    let wn : NodeInfo ← call (.nodeInfo n)
    let e : ℕ ← call (.newEndpoint (endpointOf endpoint.sandboxID endpoint.hostPort n wn))
    let ss : Option ℕ ← withRLock .siStorage (call (.getService endpoint.serviceName))
    match ss with
    | none => pure ()
    | some c =>
      let info : ServiceInfo ← call (.serviceInfo c)
      addEndpointToWNStruct wn.nodeID e info.name
      let infos ← withLock (.endpointLock c) do
        let seen : List ℕ ← call (.getEndpoints c)
        call (.setEndpoints c seen e)
        let es : List ℕ ← call (.getEndpoints c)
        call (.prepareEndpointInfo es)
      updateEndpoints c infos
      call (.addActualScale c 1)
      startAutoscaling c

/-- `reconstructEndpointsState` -/
def reconstructEndpointsState : Code Unit := do
  let ns : List ℕ ← call .nodes
  let endpoints ← listAllEndpoints ns
  start (endpoints.map .reconstructEndpoint)

/-- `ReconstructState` with `Reconstruct` enabled. -/
def reconstructState : Code (Option Error) := do
  let dataPlanes : Option (List DataplaneInfo) ← call .getDataPlaneInformation
  match dataPlanes with
  | none => pure (some .persistence)
  | some dataPlanes =>
    reconstructDataplanes dataPlanes
    let workers : Option (List NodeInfo) ← call .getWorkerNodeInformation
    match workers with
    | none => pure (some .persistence)
    | some workers =>
      reconstructWorkers workers
      let services : Option (List ServiceInfo) ← call .getServiceInformation
      match services with
      | none => pure (some .persistence)
      | some services =>
        startAndWait (services.map .reconstructService)
        reconstructEndpointsState
        let leader : Bool ← call .setLeader
        if leader then pure none else pure (some .persistence)

/-! ## All goroutines -/

/-- What a goroutine runs. -/
def body : Op → Code Unit
  | .registerDataplane info => do let _ ← registerDataplane info
  | .deregisterDataplane info => do let _ ← deregisterDataplane info
  | .registerNode info => do let _ ← registerNode info
  | .deregisterNode nodeID => do let _ ← deregisterNode nodeID
  | .nodeHeartbeat nodeID => do let _ ← nodeHeartbeat nodeID
  | .registerService info => do let _ ← registerService info
  | .deregisterService name => do let _ ← deregisterService name
  | .handleFailure failures => handleFailure failures
  | .checkWorkerNodes => checkWorkerNodes
  | .onMetricsReceive name => do let _ ← onMetricsReceive name
  | .reconstructState => do let _ ← reconstructState
  | .cleanControlPlaneInMemoryData => cleanControlPlaneInMemoryData
  | .connectToWorker n => do let _ ← call (.connectToWorker n)
  | .precreateSnapshot c n => precreateSnapshot c n
  | .scalingControllerLoop c => scalingControllerLoop c
  | .takeLastValue c desired isLoopRunning => takeLastValue c desired isLoopRunning
  | .scalingLoop c => scalingLoop c
  | .scalingLoopRound c => scalingLoopRound c
  | .createSandbox c => createSandbox c
  | .drainAndDelete c toEvict => drainAndDelete c toEvict
  | .deleteVictim e => deleteVictim e
  | .reconstructWorker n => reconstructWorker n
  | .reconstructService info => reconstructService info
  | .reconstructEndpointsState => reconstructEndpointsState
  | .reconstructEndpoint e => reconstructEndpoint e

/-- The operations that are called from outside. -/
def Op.isCall : Op → Bool
  | .registerDataplane _ | .deregisterDataplane _ | .registerNode _ | .deregisterNode _
  | .nodeHeartbeat _ | .registerService _ | .deregisterService _ | .handleFailure _
  | .checkWorkerNodes | .onMetricsReceive _ | .reconstructState
  | .cleanControlPlaneInMemoryData => true
  | _ => false

/-- A new control plane on any store and beside any data planes. -/
def Fresh (s : State) : Prop :=
  s.dataPlaneConnections = ∅ ∧ s.niStorage = ∅ ∧ s.siStorage = ∅ ∧ s.discarded = false

/-- The control plane: all interleavings of any number of calls and of the goroutines they start. -/
def controlPlane : Lang Lock Act Op Act.Ans State Choice where
  init := Fresh
  exec := exec
  body := body
  entry := Op.isCall

end Dirigent.ControlPlane
