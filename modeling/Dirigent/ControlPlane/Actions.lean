import Dirigent.ControlPlane.State

/-!
# Actions of the control plane

What a goroutine of the control plane can do in one step: an access to one of the storages without
taking its lock, a call to the persistence layer, to a data plane or to a worker, an access to a
service's controller or to a node's endpoint map. `exec` says what each does to the state.

A call that fails leaves the state as it was (`Choice.error`), or it fails after it has taken effect
(`Choice.lateError`): the persistence layer writes, waits for a quorum and returns the error of the
wait, and the answer of a data plane may be lost.
-/

namespace Dirigent.ControlPlane

open DataPlane (EndpointInfo)

/-- What the environment decides in a step. -/
inductive Choice
  | ok | error | lateError
  /-- The positions of a map's entries, in the order in which they come up. -/
  | order (ps : List ℕ)
  | sandbox (id : String) (hostPort : ℤ)
  | node (n : ℕ)
  | draws (ds : List ℕ)
  | desired (n : ℤ)
  | endpoints (es : List EndpointRecord)
  deriving DecidableEq, Repr

namespace Choice

def succeeds : Choice → Bool
  | .error | .lateError => false
  | _ => true

/-- Whether a call does what it is for, whatever it answers. -/
def takesEffect : Choice → Bool
  | .error => false
  | _ => true

theorem takesEffect_of_succeeds {c : Choice} (h : c.succeeds = true) : c.takesEffect = true := by
  cases c <;> first | rfl | cases h

/-- A map's entries in the order in which Go walks them. -/
def arrange {α : Type} (c : Choice) (xs : List α) : List α :=
  match c with
  | .order ps => if ps.isPerm (List.range xs.length) then ps.filterMap (xs[·]?) else xs
  | _ => xs

theorem filterMap_range {α : Type} (xs : List α) :
    (List.range xs.length).filterMap (xs[·]?) = xs := by
  induction xs using List.reverseRecOn with
  | nil => rfl
  | append_singleton xs x ih =>
    have hinit : (List.range xs.length).filterMap ((xs ++ [x])[·]?) = xs := by
      refine (List.filterMap_congr fun p hp => ?_).trans ih
      exact List.getElem?_append_left (List.mem_range.1 hp)
    simp [List.range_succ, hinit]

/-- Go walks every entry of a map once. -/
theorem arrange_perm {α : Type} (c : Choice) (xs : List α) : (c.arrange xs).Perm xs := by
  cases c with
  | order ps =>
    simp only [arrange]
    split
    · next h =>
      exact ((List.isPerm_iff.1 h).filterMap _).trans (List.Perm.of_eq (filterMap_range xs))
    · exact List.Perm.refl xs
  | _ => exact List.Perm.refl xs

end Choice

inductive Act
  | precreateSnapshots
  | endpointPersistence
  -- `DataPlaneConnections`
  | hasDataPlane (ip : String)
  | setDataPlane (info : DataplaneInfo)
  | removeDataPlane (ip : String)
  | dataPlanes
  -- `NIStorage`
  | getNode (name : String)
  /-- The same lookup, made to unlock the map of the node that was `locked`. -/
  | getNodeToUnlock (name : String) (locked : ℕ)
  | newNode (info : NodeInfo)
  | setNode (n : ℕ)
  | removeNode (name : String)
  | nodes
  | nodeCount
  -- `SIStorage`
  | getService (name : String)
  | setService (info : ServiceInfo) (reconstructed : Bool)
  | removeService (name : String)
  | services
  -- the persistence layer
  | storeDataPlaneInformation (info : DataplaneInfo)
  | deleteDataPlaneInformation (ip : String)
  | storeWorkerNodeInformation (info : NodeInfo)
  | deleteWorkerNodeInformation (name : String)
  | storeServiceInformation (info : ServiceInfo)
  | deleteServiceInformation (name : String)
  | storeEndpoint (e : Endpoint)
  | getDataPlaneInformation
  | getWorkerNodeInformation
  | getServiceInformation
  | setLeader
  -- calls to data planes
  | initializeDataPlaneConnection (info : DataplaneInfo)
  | addDeployment (ip name : String)
  | deleteDeployment (ip name : String)
  | updateEndpointList (ip name : String) (es : List EndpointInfo)
  | drainSandbox (ip name : String) (es : List EndpointInfo)
  -- workers
  | connectToWorker (n : ℕ)
  | isConnected (n : ℕ)
  | createSandbox (n : ℕ) (info : ServiceInfo)
  | deleteSandbox (n : ℕ) (id : String) (hostPort : ℤ)
  | listEndpoints (n : ℕ)
  | setSchedulability (n : ℕ) (val : Bool)
  | heartbeatMissed (n : ℕ)
  | place
  | nodeInfo (n : ℕ)
  -- a node's endpoint map
  | endpointMapSet (n e : ℕ) (name : String)
  | endpointMapRemove (n e : ℕ)
  | endpointMapIDs (n : ℕ)
  -- a service and its controller
  | serviceInfo (c : ℕ)
  | closeChannel (c : ℕ)
  -- `AutoscalingRunning` and `StopCh`
  | casAutoscaling (c : ℕ)
  | loadAutoscaling (c : ℕ)
  | clearAutoscaling (c : ℕ)
  | makeStopCh (c : ℕ)
  | sendStop (c : ℕ)
  | closeStopCh (c : ℕ)
  | dropStopCh (c : ℕ)
  /-- The ticker ticks (`true`), or there is something on `StopCh`. -/
  | selectTick (c : ℕ)
  | knativeScaling (c : ℕ) (isScaleFromZero : Bool)
  -- `DesiredStateChannel`: a send begins, and ends when the value has been taken
  | offer (c : ℕ) (desired : ℤ)
  | awaitTaken (c : ℕ)
  | receive (c : ℕ)
  | tryReceive (c : ℕ)
  | swapActualScale (c : ℕ) (desired : ℤ)
  | addActualScale (c : ℕ) (k : ℤ)
  /-- Asked when the loop has found `actual` and wants `desired`. -/
  | isDownScalingDisabled (c : ℕ) (actual desired : ℤ)
  | newEndpoint (e : Endpoint)
  | getEndpoint (e : ℕ)
  | getEndpoints (c : ℕ)
  /-- `Endpoints = append(seen, e)` -/
  | setEndpoints (c : ℕ) (seen : List ℕ) (e : ℕ)
  | searchEndpoint (c : ℕ) (cid : String)
  | excludeEndpoints (c : ℕ) (es : List ℕ)
  | excludeEndpointsOnNode (c : ℕ) (nodeID : String)
  | evict (c n : ℕ)
  | prepareEndpointInfo (es : List ℕ)
  -- the API server drops this control plane
  | replaceControlPlane

namespace Act

/-- The type of the answer. Calls that can fail answer whether they succeeded. -/
@[reducible] def Ans : Act → Type
  | .precreateSnapshots | .endpointPersistence | .hasDataPlane _ => Bool
  | .dataPlanes => List String
  | .getNode _ | .getNodeToUnlock _ _ | .getService _ | .place => Option ℕ
  | .newNode _ | .nodeCount | .newEndpoint _ => ℕ
  | .nodes | .services | .getEndpoints _ | .evict _ _ => List ℕ
  | .storeDataPlaneInformation _ | .deleteDataPlaneInformation _ | .storeWorkerNodeInformation _
  | .deleteWorkerNodeInformation _ | .storeServiceInformation _ | .deleteServiceInformation _
  | .storeEndpoint _ | .setLeader => Bool
  | .getDataPlaneInformation => Option (List DataplaneInfo)
  | .getWorkerNodeInformation => Option (List NodeInfo)
  | .getServiceInformation => Option (List ServiceInfo)
  | .initializeDataPlaneConnection _ | .addDeployment _ _ | .deleteDeployment _ _
  | .updateEndpointList _ _ _ | .drainSandbox _ _ _ => Bool
  | .connectToWorker _ | .isConnected _ | .deleteSandbox _ _ _ | .heartbeatMissed _ => Bool
  | .createSandbox _ _ => Option (String × ℤ)
  | .listEndpoints _ => Option (List EndpointRecord)
  | .nodeInfo _ => NodeInfo
  | .endpointMapIDs _ => List String
  | .serviceInfo _ => ServiceInfo
  | .receive _ => ℤ × Bool
  | .tryReceive _ => Option (ℤ × Bool)
  | .swapActualScale _ _ => ℤ
  | .isDownScalingDisabled _ _ _ => Bool
  | .casAutoscaling _ | .loadAutoscaling _ | .sendStop _ | .closeStopCh _ | .selectTick _
  | .offer _ _ | .awaitTaken _ => Bool
  | .knativeScaling _ _ => ℤ
  | .getEndpoint _ => Endpoint
  | .searchEndpoint _ _ => Option ℕ
  | .excludeEndpointsOnNode _ _ => Option ℕ
  | .prepareEndpointInfo _ => List EndpointInfo
  | .setDataPlane _ | .removeDataPlane _ | .setNode _ | .removeNode _ | .setService _ _
  | .removeService _ | .setSchedulability _ _ | .endpointMapSet _ _ _ | .endpointMapRemove _ _
  | .closeChannel _ | .addActualScale _ _ | .setEndpoints _ _ _ | .excludeEndpoints _ _
  | .clearAutoscaling _ | .makeStopCh _ | .dropStopCh _ | .replaceControlPlane => Unit

end Act

/-- The keys of a map, in the order in which Go walks them. -/
def walkKeys {β : Type} (m : AList fun _ : String => β) (c : Choice) : List String :=
  c.arrange m.keys

/-- The values of a map, in the order in which Go walks them. -/
def walkValues {β : Type} (m : AList fun _ : String => β) (c : Choice) : List β :=
  c.arrange (m.entries.map Sigma.snd)

/-- What an action answers and does to the state; `none` where it cannot happen now. -/
def exec : (a : Act) → State → Choice → Option (a.Ans × State)
  | .precreateSnapshots, s, _ => some (s.precreateSnapshots, s)
  | .endpointPersistence, s, _ => some (s.endpointPersistence, s)
  | .hasDataPlane ip, s, _ => some ((s.dataPlaneConnections.lookup ip).isSome, s)
  | .setDataPlane info, s, _ =>
    some ((), { s with dataPlaneConnections := s.dataPlaneConnections.insert info.ip info })
  | .removeDataPlane ip, s, _ =>
    some ((), { s with dataPlaneConnections := s.dataPlaneConnections.erase ip })
  | .dataPlanes, s, c => some (walkKeys s.dataPlaneConnections c, s)
  | .getNode name, s, _ => some (s.niStorage.lookup name, s)
  | .getNodeToUnlock name _, s, _ => some (s.niStorage.lookup name, s)
  | .newNode info, s, _ =>
    some (s.nodeCount,
      { s with
        nodes := Function.update s.nodes s.nodeCount { info := info, endpointMap := ∅ }
        nodeCount := s.nodeCount + 1 })
  | .setNode n, s, _ =>
    some ((), { s with niStorage := s.niStorage.insert (s.nodes n).info.nodeID n })
  | .removeNode name, s, _ => some ((), { s with niStorage := s.niStorage.erase name })
  | .nodes, s, c => some (walkValues s.niStorage c, s)
  | .nodeCount, s, _ => some (s.niStorage.entries.length, s)
  | .getService name, s, _ => some (s.siStorage.lookup name, s)
  | .setService info reconstructed, s, _ =>
    some ((),
      { s with
        services := Function.update s.services s.serviceCount
          { info := info, reconstructed := reconstructed }
        siStorage := s.siStorage.insert info.name s.serviceCount
        serviceCount := s.serviceCount + 1 })
  | .removeService name, s, _ => some ((), { s with siStorage := s.siStorage.erase name })
  | .services, s, c => some (walkValues s.siStorage c, s)
  | .storeDataPlaneInformation info, s, c =>
    some (c.succeeds, if c.takesEffect then
      { s with storedDataPlanes := s.storedDataPlanes.insert info.ip info } else s)
  | .deleteDataPlaneInformation ip, s, c =>
    some (c.succeeds, if c.takesEffect then
      { s with storedDataPlanes := s.storedDataPlanes.erase ip } else s)
  | .storeWorkerNodeInformation info, s, c =>
    some (c.succeeds, if c.takesEffect then
      { s with storedWorkers := s.storedWorkers.insert info.nodeID info } else s)
  | .deleteWorkerNodeInformation name, s, c =>
    some (c.succeeds, if c.takesEffect then
      { s with storedWorkers := s.storedWorkers.erase name } else s)
  | .storeServiceInformation info, s, c =>
    some (c.succeeds, if c.takesEffect then
      { s with storedServices := s.storedServices.insert info.name info } else s)
  | .deleteServiceInformation name, s, c =>
    some (c.succeeds, if c.takesEffect then
      { s with storedServices := s.storedServices.erase name } else s)
  -- the store is a map for each kind of record here, and nobody reads the endpoints
  | .storeEndpoint _, s, c => some (c.succeeds, s)
  | .getDataPlaneInformation, s, c =>
    some (if c.succeeds then some (walkValues s.storedDataPlanes c) else none, s)
  | .getWorkerNodeInformation, s, c =>
    some (if c.succeeds then some (walkValues s.storedWorkers c) else none, s)
  | .getServiceInformation, s, c =>
    some (if c.succeeds then some (walkValues s.storedServices c) else none, s)
  | .setLeader, s, c => some (c.succeeds, s)
  | .initializeDataPlaneConnection _, s, c => some (c.succeeds, s)
  | .addDeployment ip name, s, c =>
    some (c.succeeds, if c.takesEffect then
      s.setDeployment ip name (some ((s.deployments ip name).getD [])) else s)
  | .deleteDeployment ip name, s, c =>
    some (c.succeeds, if c.takesEffect then s.setDeployment ip name none else s)
  | .updateEndpointList ip name es, s, c =>
    match s.deployments ip name with
    | none => some (false, s)
    | some listed => some (c.succeeds, if c.takesEffect then
        s.setDeployment ip name (some (listed ++ es)) else s)
  | .drainSandbox ip name es, s, c =>
    match s.deployments ip name with
    | none => some (false, s)
    | some listed => some (c.succeeds, if c.takesEffect then
        s.setDeployment ip name (some (drained es listed)) else s)
  | .connectToWorker n, s, c =>
    if (s.nodes n).connected then some (true, s)
    else some (c.succeeds, if c.succeeds then
      s.modifyNode n fun wn => { wn with connected := true } else s)
  | .isConnected n, s, _ => some ((s.nodes n).connected, s)
  | .createSandbox _ _, s, c =>
    match c with
    | .sandbox id hostPort => some (some (id, hostPort), s)
    | _ => some (none, s)
  | .deleteSandbox _ _ _, s, c => some (c.succeeds, s)
  | .listEndpoints n, s, c =>
    if (s.nodes n).connected then
      match c with
      | .endpoints es => some (some es, s)
      | _ => some (none, s)
    else some (some [], s)
  | .setSchedulability n val, s, _ =>
    some ((), s.modifyNode n fun wn => { wn with schedulable := val })
  | .heartbeatMissed _, s, c => some (!c.succeeds, s)
  -- any policy: a schedulable node of the storage, or none
  | .place, s, c =>
    match c with
    | .node n => if n ∈ s.niStorage.entries.map Sigma.snd ∧ (s.nodes n).schedulable then
        some (some n, s) else none
    | _ => some (none, s)
  | .nodeInfo n, s, _ => some ((s.nodes n).info, s)
  | .endpointMapSet n e name, s, _ =>
    some ((), s.modifyNode n fun wn => { wn with endpointMap := wn.endpointMap.insert e name })
  | .endpointMapRemove n e, s, _ =>
    some ((), s.modifyNode n fun wn => { wn with endpointMap := wn.endpointMap.erase e })
  | .endpointMapIDs n, s, c =>
    some (c.arrange ((s.nodes n).endpointMap.keys.map fun e => (s.endpoints e).sandboxID), s)
  | .serviceInfo c, s, _ => some ((s.services c).info, s)
  | .closeChannel c, s, _ =>
    some ((), s.modifyService c fun ss => { ss with channelClosed := true })
  | .casAutoscaling c, s, _ =>
    if (s.services c).autoscalingRunning then some (false, s)
    else some (true, s.modifyService c fun ss => { ss with autoscalingRunning := true })
  | .loadAutoscaling c, s, _ => some ((s.services c).autoscalingRunning, s)
  | .clearAutoscaling c, s, _ =>
    some ((), s.modifyService c fun ss => { ss with autoscalingRunning := false })
  | .makeStopCh c, s, _ => some ((), s.modifyService c fun ss => { ss with stopCh := .empty })
  -- a send waits on a nil channel and on a full one, and faults on a closed one
  | .sendStop c, s, _ =>
    match (s.services c).stopCh with
    | .empty => some (true, s.modifyService c fun ss => { ss with stopCh := .full })
    | .closed => some (false, s)
    | _ => none
  -- to close a nil or a closed channel is a fault
  | .closeStopCh c, s, _ =>
    match (s.services c).stopCh with
    | .empty | .full => some (true, s.modifyService c fun ss => { ss with stopCh := .closed })
    | _ => some (false, s)
  | .dropStopCh c, s, _ => some ((), s.modifyService c fun ss => { ss with stopCh := .absent })
  | .selectTick c, s, ch =>
    if ch.succeeds then some (true, s)
    else match (s.services c).stopCh with
      | .full => some (false, s.modifyService c fun ss => { ss with stopCh := .empty })
      | .closed => some (false, s)
      | _ => none
  | .knativeScaling _ _, s, ch =>
    match ch with
    | .desired n => some (n, s)
    | _ => some (0, s)
  -- to send on a closed channel, or to be sending when it is closed, is a fault
  | .offer c desired, s, _ =>
    if (s.services c).channelClosed then some (false, s)
    else if (s.services c).offer = none then
      some (true, s.modifyService c fun ss => { ss with offer := some desired })
    else none
  | .awaitTaken c, s, _ =>
    if (s.services c).offer = none then some (true, s)
    else if (s.services c).channelClosed then some (false, s)
    else none
  -- a receive from a closed channel answers at once
  | .receive c, s, _ =>
    if (s.services c).channelClosed then some ((0, false), s)
    else (s.services c).offer.map fun n =>
      ((n, true), s.modifyService c fun ss => { ss with offer := none })
  | .tryReceive c, s, _ =>
    if (s.services c).channelClosed then some (some (0, false), s)
    else match (s.services c).offer with
      | some n => some (some (n, true), s.modifyService c fun ss => { ss with offer := none })
      | none => some (none, s)
  | .swapActualScale c desired, s, _ =>
    some ((s.services c).actualScale,
      s.modifyService c fun ss => { ss with actualScale := desired })
  | .addActualScale c k, s, _ =>
    some ((), s.modifyService c fun ss => { ss with actualScale := ss.actualScale + k })
  | .isDownScalingDisabled c _ _, s, ch => some ((s.services c).reconstructed && ch.succeeds, s)
  | .newEndpoint e, s, _ =>
    some (s.endpointCount,
      { s with
        endpoints := Function.update s.endpoints s.endpointCount e
        endpointCount := s.endpointCount + 1 })
  | .getEndpoint e, s, _ => some (s.endpoints e, s)
  | .getEndpoints c, s, _ => some ((s.services c).endpoints, s)
  | .setEndpoints c seen e, s, _ =>
    some ((), s.modifyService c fun ss => { ss with endpoints := seen ++ [e] })
  | .searchEndpoint c cid, s, _ =>
    some (s.searchEndpointByContainerName (s.services c).endpoints cid, s)
  | .excludeEndpoints c es, s, _ =>
    some ((), s.modifyService c fun ss =>
      { ss with endpoints := excludeEndpoints ss.endpoints es })
  -- an endpoint without a node is a nil dereference
  | .excludeEndpointsOnNode c nodeID, s, _ =>
    let endpoints := (s.services c).endpoints
    if endpoints.all fun e => (s.nodeName e).isSome then
      let toExclude := endpoints.filter fun e => s.nodeName e = some nodeID
      some (some toExclude.dedup.length, s.modifyService c fun ss =>
        { ss with endpoints := excludeEndpoints ss.endpoints toExclude })
    else some (none, s)
  | .evict c n, s, ch =>
    let toEvict := victims n (match ch with | .draws ds => ds | _ => []) (s.services c).endpoints []
    some (toEvict, s.modifyService c fun ss =>
      { ss with endpoints := excludeEndpoints ss.endpoints toEvict })
  | .prepareEndpointInfo es, s, _ => some (s.prepareEndpointInfo es, s)
  | .replaceControlPlane, s, _ => some ((), { s with discarded := true })

attribute [local simp] exec in
theorem exec_receive_state {s s' : State} {c : ℕ} {ch : Choice} {r : ℤ × Bool}
    (h : exec (.receive c) s ch = some (r, s')) :
    s' = s ∨ s' = s.modifyService c fun ss => { ss with offer := none } := by
  dsimp at h
  split at h
  · cases h
    exact .inl rfl
  · obtain ⟨n, -, hn⟩ := Option.map_eq_some_iff.1 h
    cases hn
    exact .inr rfl

end Dirigent.ControlPlane
