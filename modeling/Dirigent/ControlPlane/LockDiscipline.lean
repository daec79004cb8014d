import Dirigent.Solo
import Dirigent.ControlPlane.Scaling

/-!
# Lock discipline

Each operation of the control plane, run alone from a state with no lock held, must not ask for a
lock it already holds, and must give back every lock it takes. Half of the operations do so for
every state and every outcome of the calls they make (`returns_registerDataplane`,
`returns_deregisterDataplane`, `returns_deregisterNode`, `returns_handleFailure`). The others do
not:

* `RegisterNode` and `RegisterService` answer a failed store with `AtomicRemove`, which takes the
  lock they hold;
* `RegisterService` holds the lock of `SIStorage` when it calls `precreateSnapshots`, which takes
  it;
* `DeregisterService` leaves with the lock of `DataPlaneConnections` if a data plane fails;
* `CheckPeriodicallyWorkerNodes` holds the lock of `NIStorage` when it looks up a node with
  `AtomicGet`.

`lock_discipline_iff` says that there are no other cases.
-/

namespace Dirigent.ControlPlane

open DataPlane (EndpointInfo)
open Prog

variable {env : Act → Choice} {s : State} {m : Lock → RWMutex}

def noLocks : Lock → RWMutex := fun _ => {}

/-- Run alone with no lock held, the operation comes back with no lock held. It does not if it is
ever blocked, which alone it can only be at a lock it holds. A fault is not a return. -/
def KeepsLocks (env : Act → Choice) (s : State) (op : Op) : Prop :=
  ReturnsFrom exec env s noLocks (body op) noLocks

/-- The operations of the API and the monitoring. -/
def Op.isOperation : Op → Bool
  | .registerDataplane _ | .deregisterDataplane _ | .registerNode _ | .deregisterNode _
  | .registerService _ | .deregisterService _ | .handleFailure _ | .checkWorkerNodes => true
  | _ => false

/-- Where an operation breaks the lock discipline, in terms of the state it starts in and the
outcomes of its calls. -/
def LockFault (env : Act → Choice) (s : State) : Op → Prop
  | .registerNode info => s.niStorage.lookup info.nodeID = none ∧
      (env (.storeWorkerNodeInformation info)).succeeds = false
  | .registerService info => s.siStorage.lookup info.name = none ∧
      ((env (.storeServiceInformation info)).succeeds = false ∨ s.precreateSnapshots = true)
  | .deregisterService name => (s.siStorage.lookup name).isSome = true ∧
      (env (.deleteServiceInformation name)).succeeds = true ∧
      ∃ ip ∈ s.dataPlaneConnections.keys, (env (.deleteDeployment ip name)).succeeds = false
  | .checkWorkerNodes => (∃ n ∈ s.niStorage.entries.map Sigma.snd,
      (env (.heartbeatMissed n)).succeeds = false) ∧ s.siStorage.entries ≠ []
  | _ => False

/-! ## Operations that always keep the locks -/

/-- The actions that may have to wait, or that are not for every choice. -/
def Act.mayWait : Act → Bool
  | .receive _ | .place | .sendStop _ | .selectTick _ | .offer _ _ | .awaitTaken _ => true
  | _ => false

theorem exec_ne_none {a : Act} {c : Choice} (h : a.mayWait = false) (s : State) :
    exec a s c ≠ none := by
  cases a with
  | receive c | place | sendStop c | selectTick c | offer c desired | awaitTaken c => cases h
  | casAutoscaling c | closeStopCh c | knativeScaling c isScaleFromZero
  | updateEndpointList ip name es | drainSandbox ip name es | connectToWorker n
  | createSandbox n info | excludeEndpointsOnNode n nodeID => simp only [exec]; split <;> simp
  | listEndpoints n | tryReceive n => simp only [exec]; repeat' split <;> simp
  | _ => simp [exec]

theorem returns_call {a : Act} (h : a.mayWait = false) : Returns exec env m (call a) m :=
  returns_perform fun s => exec_ne_none h s

theorem returns_singlethreadUpdateEndpoints (c : ℕ) (es : List EndpointInfo) :
    Returns exec env m (singlethreadUpdateEndpoints c es) m :=
  returns_bind (returns_call rfl) fun _ => returns_bind (returns_call rfl) fun _ =>
    returns_forM fun _ _ => returns_bind (returns_call rfl) fun _ => returns_ret _

theorem returns_updateEndpoints (c : ℕ) (es : List EndpointInfo)
    (hm : m .dataPlaneConnections = {}) : Returns exec env m (updateEndpoints c es) m :=
  returns_withLock hm (returns_singlethreadUpdateEndpoints c es)

theorem returns_addDeployments (ip : String) (cs : List ℕ) :
    Returns exec env m (addDeployments ip cs) m := by
  induction cs with
  | nil => exact returns_ret _
  | cons c cs ih =>
    refine returns_bind (returns_call rfl) fun _ => returns_bind (returns_call rfl) fun ok => ?_
    cases ok with
    | true =>
      exact returns_bind (returns_call rfl) fun _ => returns_bind (returns_call rfl) fun _ =>
        returns_bind (returns_singlethreadUpdateEndpoints c _) fun _ => ih
    | false => exact returns_bind (returns_call rfl) fun _ => returns_ret _

theorem returns_registerDataplane (info : DataplaneInfo) :
    Returns exec env noLocks (registerDataplane info) noLocks := by
  refine returns_withLock rfl (returns_withLock rfl ?_)
  refine returns_bind (returns_call rfl) fun present => ?_
  cases present with
  | true => exact returns_ret _
  | false =>
    refine returns_bind (returns_call rfl) fun stored => ?_
    cases stored with
    | false => exact returns_bind (returns_call rfl) fun _ => returns_ret _
    | true =>
      refine returns_bind (returns_call rfl) fun connected => ?_
      cases connected with
      | false => exact returns_bind (returns_call rfl) fun _ => returns_ret _
      | true =>
        exact returns_bind (returns_call rfl) fun _ => returns_bind (returns_call rfl) fun cs =>
          returns_bind (returns_addDeployments info.ip cs) fun _ => returns_ret _

theorem returns_deregisterDataplane (info : DataplaneInfo) :
    Returns exec env noLocks (deregisterDataplane info) noLocks := by
  refine returns_withLock rfl (returns_withLock rfl ?_)
  refine returns_bind (returns_call rfl) fun present => ?_
  cases present with
  | false => exact returns_ret _
  | true =>
    refine returns_bind (returns_call rfl) fun deleted => ?_
    cases deleted with
    | false => exact returns_ret _
    | true => exact returns_bind (returns_call rfl) fun _ => returns_ret _

/-! The deferred `Unlock` of `removeEndpointFromWNStruct` finds the node that was locked: nothing
else runs in between. -/

theorem returns_removeEndpointFromWNStruct (e : ℕ) (hm : ∀ n, m (.endpointMap n) = {}) :
    Returns exec env m (removeEndpointFromWNStruct e) m := by
  intro s
  rw [removeEndpointFromWNStruct, returnsFrom_bind_of_ok (solo_perform rfl)]
  cases hnode : (s.endpoints e).node with
  | none => exact returns_ret () s
  | some wn =>
    rw [returnsFrom_bind_of_ok (solo_perform rfl), returnsFrom_bind_of_ok (solo_perform rfl)]
    cases hn : s.niStorage.lookup (s.nodes wn).info.nodeID with
    | none => exact returns_halt s
    | some n =>
      rw [returnsFrom_bind_of_ok (solo_lock (hm n)), returnsFrom_bind_of_ok (solo_perform rfl), hn,
        returnsFrom_bind_of_ok (solo_perform rfl), hn, returnsFrom_bind_of_ok (solo_perform rfl)]
      exact returns_unlock (hm n) _

theorem returns_collectEndpoints (c : ℕ) (hm : ∀ n, m (.endpointMap n) = {})
    (cids : List String) (toRemove : List ℕ) :
    Returns exec env m (collectEndpoints c cids toRemove) m := by
  induction cids generalizing toRemove with
  | nil => exact returns_ret _
  | cons cid cids ih =>
    refine returns_bind (returns_call rfl) fun found => ?_
    cases found with
    | none => exact ih toRemove
    | some e => exact returns_bind (returns_removeEndpointFromWNStruct e hm) fun _ => ih _

theorem returns_removeEndpoints (c : ℕ) (cids : List String) :
    Returns exec env noLocks (removeEndpoints c cids) noLocks :=
  returns_withLock rfl <| returns_bind (returns_collectEndpoints c (fun _ => rfl) cids []) fun _ =>
    returns_bind (returns_call rfl) fun _ => returns_bind (returns_call rfl) fun _ =>
      returns_bind (returns_call rfl) fun _ => returns_bind (returns_call rfl) fun _ =>
        returns_updateEndpoints c _ rfl

theorem returns_handleFailure (failures : List Failure) :
    Returns exec env noLocks (handleFailure failures) noLocks := by
  refine returns_forM fun failure _ => ?_
  have hround : Returns exec env noLocks (handleSandboxFailure failure) noLocks := by
    refine returns_bind (returns_call rfl) fun service => ?_
    cases service with
    | none => exact returns_ret _
    | some c => exact returns_removeEndpoints c _
  cases failure.type with
  | sandboxFailure | workerNodeFailure => exact hround
  | sandboxDaemonFailure => exact returns_ret _

theorem returns_removeEndointsAssociatedWithNode (nodeID : String) (hsi : m .siStorage = {})
    (hep : ∀ c, m (.endpointLock c) = {}) :
    Returns exec env m (removeEndointsAssociatedWithNode nodeID) m := by
  refine returns_withLock hsi <| returns_bind (returns_call rfl) fun cs =>
    returns_forM fun c _ => ?_
  have hfree : Function.update m .siStorage written (.endpointLock c) = {} := by simp [hep]
  refine returns_bind (returns_lock hfree) fun _ =>
    returns_bind (returns_call rfl) fun removed => ?_
  cases removed with
  | none => exact returns_halt
  | some k => exact returns_bind (returns_unlock hfree) fun _ => returns_call rfl

theorem returns_deregisterNode (nodeID : String) :
    Returns exec env noLocks (deregisterNode nodeID) noLocks := by
  refine returns_withLock rfl <| returns_bind (returns_call rfl) fun node => ?_
  split
  · refine returns_bind (returns_call rfl) fun deleted => ?_
    cases deleted with
    | false => exact returns_ret _
    | true =>
      refine returns_bind
        (returns_removeEndointsAssociatedWithNode nodeID rfl fun _ => rfl) fun _ => ?_
      exact returns_bind (returns_call rfl) fun _ => returns_ret _
  · exact returns_ret _

/-! ## Operations that may break the discipline -/

theorem returnsFrom_discard {α : Type} {p : Code α} :
    ReturnsFrom exec env s m (p >>= fun _ => pure ()) m ↔ ReturnsFrom exec env s m p m := by
  rw [ReturnsFrom, ReturnsFrom, solo_bind]
  cases p.solo exec env s m with
  | error e => simp [Except.bind]
  | ok r => simp [Except.bind, Prod.ext_iff]

theorem solo_registerNode_of_failed {info : NodeInfo} (hn : s.niStorage.lookup info.nodeID = none)
    (hc : (env (.storeWorkerNodeInformation info)).succeeds = false) :
    (registerNode info).solo exec env s noLocks = .error (.blocked .niStorage) := by
  rw [registerNode, solo_bind_of_ok (solo_perform rfl)]
  refine solo_withLock_of_error rfl ?_
  rw [solo_bind_of_ok (solo_perform rfl), hn, if_neg (by simp),
    solo_bind_of_ok (solo_perform rfl), hc]
  exact solo_bind_of_error (solo_withLock_of_written rfl)

theorem registerNode_keepsLocks (info : NodeInfo) :
    KeepsLocks env s (.registerNode info) ↔ ¬ LockFault env s (.registerNode info) := by
  rw [KeepsLocks, body, returnsFrom_discard]
  cases hn : s.niStorage.lookup info.nodeID with
  | some n =>
    rw [registerNode, returnsFrom_bind_of_ok (solo_perform rfl)]
    refine iff_of_true (.withLock rfl ?_) fun h => by simp [LockFault, hn] at h
    rw [returnsFrom_bind_of_ok (solo_perform rfl), hn]
    exact returns_ret _ _
  | none =>
    cases hc : (env (.storeWorkerNodeInformation info)).succeeds with
    | true =>
      rw [registerNode, returnsFrom_bind_of_ok (solo_perform rfl)]
      refine iff_of_true (.withLock rfl ?_) fun h => by simp [LockFault, hc] at h
      rw [returnsFrom_bind_of_ok (solo_perform rfl), hn, if_neg (by simp),
        returnsFrom_bind_of_ok (solo_perform rfl), hc]
      exact returns_bind (returns_call rfl) (fun _ => returns_bind (returns_start _) fun _ =>
        returns_bind (returns_call rfl) fun _ => returns_ret _) _
    | false =>
      exact iff_of_false (not_returnsFrom_of_blocked .niStorage (solo_registerNode_of_failed hn hc))
        (not_not.2 ⟨hn, hc⟩)

/-- The data planes are told about a service whatever they answer. -/
theorem solo_notifyDataplanes (env : Act → Choice) (hm : m .dataPlaneConnections = {})
    (name : String) (s : State) :
    ∃ s', (notifyDataplanes name).solo exec env s m = .ok ((), s', m) ∧
      s'.precreateSnapshots = s.precreateSnapshots := by
  suffices hloop : ∀ (m : Lock → RWMutex) (ips : List String) (s : State), ∃ s',
      (forM ips fun ip => do let _ ← call (.addDeployment ip name) : Code Unit).solo exec env s m =
        .ok ((), s', m) ∧ s'.precreateSnapshots = s.precreateSnapshots by
    obtain ⟨s', hs', hflag⟩ := hloop (Function.update m .dataPlaneConnections written)
      (walkKeys s.dataPlaneConnections (env .dataPlanes)) s
    exact ⟨s', solo_withLock_of_ok hm ((solo_bind_of_ok (solo_perform rfl)).trans hs'), hflag⟩
  intro m ips s
  induction ips generalizing s with
  | nil => exact ⟨s, rfl, rfl⟩
  | cons ip ips ih =>
    rw [List.forM_cons, solo_bind_of_ok (solo_bind_of_ok (solo_perform rfl))]
    obtain ⟨s', hs', hflag⟩ := ih (if (env (.addDeployment ip name)).takesEffect then
      s.setDeployment ip name (some ((s.deployments ip name).getD [])) else s)
    refine ⟨s', hs', hflag.trans ?_⟩
    split <;> rfl

theorem solo_notifyDataplanesAndStartScalingLoop (env : Act → Choice)
    (hm : m .dataPlaneConnections = {}) (info : ServiceInfo) (r : Bool) (s : State) :
    ∃ s', (notifyDataplanesAndStartScalingLoop info r).solo exec env s m = .ok (none, s', m) ∧
      s'.precreateSnapshots = s.precreateSnapshots := by
  obtain ⟨s', hnotify, hflag⟩ := solo_notifyDataplanes env hm info.name s
  rw [notifyDataplanesAndStartScalingLoop, solo_bind_of_ok hnotify,
    solo_bind_of_ok (solo_perform rfl), solo_bind_of_ok (solo_perform rfl), AList.lookup_insert]
  exact ⟨_, rfl, hflag⟩

theorem solo_registerService_of_failed {info : ServiceInfo}
    (hn : s.siStorage.lookup info.name = none)
    (hc : (env (.storeServiceInformation info)).succeeds = false) :
    (registerService info).solo exec env s noLocks = .error (.blocked .siStorage) := by
  refine solo_withLock_of_error rfl ?_
  rw [solo_bind_of_ok (solo_perform rfl), hn, if_neg (by simp),
    solo_bind_of_ok (solo_perform rfl), hc]
  exact solo_bind_of_error (solo_withLock_of_written rfl)

theorem registerService_keepsLocks (info : ServiceInfo) :
    KeepsLocks env s (.registerService info) ↔ ¬ LockFault env s (.registerService info) := by
  rw [KeepsLocks, body, returnsFrom_discard, registerService]
  cases hn : s.siStorage.lookup info.name with
  | some c =>
    refine iff_of_true (.withLock rfl ?_) fun h => by simp [LockFault, hn] at h
    rw [returnsFrom_bind_of_ok (solo_perform rfl), hn]
    exact returns_ret _ _
  | none =>
    cases hc : (env (.storeServiceInformation info)).succeeds with
    | false =>
      exact iff_of_false
        (not_returnsFrom_of_blocked .siStorage (solo_registerService_of_failed hn hc))
        (not_not.2 ⟨hn, .inl hc⟩)
    | true =>
      have heffect := Choice.takesEffect_of_succeeds hc
      obtain ⟨s', hs', hflag⟩ := solo_notifyDataplanesAndStartScalingLoop env
        (m := Function.update noLocks .siStorage written) rfl info false
        { s with storedServices := s.storedServices.insert info.name info }
      cases hpre : s.precreateSnapshots with
      | false =>
        refine iff_of_true (.withLock rfl ?_) fun h => by simp [LockFault, hc, hpre] at h
        rw [returnsFrom_bind_of_ok (solo_perform rfl), hn, if_neg (by simp),
          returnsFrom_bind_of_ok (solo_perform rfl), hc, heffect]
        refine (returnsFrom_bind_of_ok hs').2 ((returnsFrom_bind_of_ok (solo_perform rfl)).2 ?_)
        rw [hflag.trans hpre]
        exact returns_ret _ _
      | true =>
        refine iff_of_false (not_returnsFrom_of_blocked .siStorage (solo_withLock_of_error rfl ?_))
          (not_not.2 ⟨hn, .inr hpre⟩)
        rw [solo_bind_of_ok (solo_perform rfl), hn, if_neg (by simp),
          solo_bind_of_ok (solo_perform rfl), hc, heffect]
        refine (solo_bind_of_ok hs').trans ((solo_bind_of_ok (solo_perform rfl)).trans ?_)
        rw [hflag.trans hpre]
        exact solo_bind_of_error (solo_withLock_of_written rfl)

/-- The data planes are asked one after another until one fails. -/
theorem solo_deleteDeployments (env : Act → Choice) (m : Lock → RWMutex) (name : String)
    (ips : List String) (s : State) :
    ∃ d, (deleteDeployments name ips).solo exec env s m =
      .ok (ips.all fun ip => (env (.deleteDeployment ip name)).succeeds,
        { s with deployments := d }, m) := by
  induction ips generalizing s with
  | nil => exact ⟨s.deployments, rfl⟩
  | cons ip ips ih =>
    rw [deleteDeployments, solo_bind_of_ok (solo_perform rfl), List.all_cons]
    cases hc : (env (.deleteDeployment ip name)).succeeds with
    | true =>
      rw [Choice.takesEffect_of_succeeds hc]
      exact ih _
    | false =>
      cases heffect : (env (.deleteDeployment ip name)).takesEffect with
      | true => exact ⟨_, rfl⟩
      | false => exact ⟨s.deployments, rfl⟩

theorem solo_removeServiceFromDataplane (env : Act → Choice) (hm : m .dataPlaneConnections = {})
    (name : String) (s : State) :
    ∃ d, (removeServiceFromDataplane name).solo exec env s m =
      if ∃ ip ∈ s.dataPlaneConnections.keys, (env (.deleteDeployment ip name)).succeeds = false then
        .ok (some .dataPlane, { s with deployments := d },
          Function.update m .dataPlaneConnections written)
      else .ok (none, { s with deployments := d }, m) := by
  obtain ⟨d, hd⟩ := solo_deleteDeployments env
    (Function.update m .dataPlaneConnections written) name
    (walkKeys s.dataPlaneConnections (env .dataPlanes)) s
  refine ⟨d, ?_⟩
  rw [removeServiceFromDataplane, solo_bind_of_ok (solo_lock hm),
    solo_bind_of_ok (solo_perform rfl), solo_bind_of_ok hd]
  have hperm := (env .dataPlanes).arrange_perm s.dataPlaneConnections.keys
  split_ifs with hall hfail hfail
  · obtain ⟨ip, hip, herr⟩ := hfail
    have hok := List.all_eq_true.1 hall ip (hperm.mem_iff.2 hip)
    simp [herr] at hok
  · rw [solo_bind_of_ok (solo_unlock hm), solo_pure]
  · rfl
  · refine absurd (List.all_eq_true.2 fun ip hip => ?_) hall
    by_contra herr
    exact hfail ⟨ip, hperm.mem_iff.1 hip, by simpa using herr⟩

theorem deregisterService_keepsLocks (name : String) :
    KeepsLocks env s (.deregisterService name) ↔ ¬ LockFault env s (.deregisterService name) := by
  rw [KeepsLocks, body, returnsFrom_discard, deregisterService]
  cases hn : s.siStorage.lookup name with
  | none =>
    refine iff_of_true (.withLock rfl ?_) fun h => by simp [LockFault, hn] at h
    rw [returnsFrom_bind_of_ok (solo_perform rfl), hn]
    exact returns_ret _ _
  | some c =>
    cases hc : (env (.deleteServiceInformation name)).succeeds with
    | false =>
      refine iff_of_true (.withLock rfl ?_) fun h => by simp [LockFault, hc] at h
      rw [returnsFrom_bind_of_ok (solo_perform rfl), hn]
      refine (returnsFrom_bind_of_ok (solo_perform rfl)).2 ?_
      rw [hc]
      exact returns_ret _ _
    | true =>
      have heffect := Choice.takesEffect_of_succeeds hc
      obtain ⟨d, hd⟩ := solo_removeServiceFromDataplane env
        (m := Function.update noLocks .siStorage written) rfl name
        { s with storedServices := s.storedServices.erase name }
      by_cases hfail : ∃ ip ∈ s.dataPlaneConnections.keys,
          (env (.deleteDeployment ip name)).succeeds = false
      · refine iff_of_false ?_ (not_not.2 ⟨by simp [hn], hc, hfail⟩)
        rw [if_pos hfail] at hd
        refine not_returnsFrom_withLock { success := false, err := some .dataPlane }
          { s with storedServices := s.storedServices.erase name, deployments := d }
          (Function.update (Function.update noLocks .siStorage written)
            .dataPlaneConnections written) rfl
          (fun h => absurd (congrFun h .dataPlaneConnections) (by decide)) ?_
        rw [solo_bind_of_ok (solo_perform rfl), hn]
        refine (solo_bind_of_ok (solo_perform rfl)).trans ?_
        rw [hc, heffect]
        exact solo_bind_of_ok hd
      · refine iff_of_true (.withLock rfl ?_) fun h => hfail h.2.2
        rw [if_neg hfail] at hd
        rw [returnsFrom_bind_of_ok (solo_perform rfl), hn]
        refine (returnsFrom_bind_of_ok (solo_perform rfl)).2 ?_
        rw [hc, heffect]
        refine (returnsFrom_bind_of_ok hd).2 ?_
        exact returns_bind (returns_call rfl)
          (fun _ => returns_bind (returns_call rfl) fun _ => returns_ret _) _

theorem solo_createWorkerNodeFailureEvents (env : Act → Choice) (hni : m .niStorage = written)
    (hsi : m .siStorage = {}) (n : ℕ) (s : State) :
    (createWorkerNodeFailureEvents n).solo exec env s m =
      if s.siStorage.entries = [] then .ok ([], s, m) else .error (.blocked .niStorage) := by
  have hperm := (env .services).arrange_perm (s.siStorage.entries.map Sigma.snd)
  split_ifs with hs
  · have hnil : walkValues s.siStorage (env .services) = [] := by
      rw [hs] at hperm
      rw [walkValues, hs]
      exact hperm.eq_nil
    refine solo_withLock_of_ok hsi ((solo_bind_of_ok (solo_perform rfl)).trans ?_)
    rw [hnil]
    rfl
  · refine solo_withLock_of_error hsi ((solo_bind_of_ok (solo_perform rfl)).trans ?_)
    cases hcs : walkValues s.siStorage (env .services) with
    | nil =>
      rw [walkValues] at hcs
      rw [hcs] at hperm
      exact absurd (by simpa using List.nil_perm.1 hperm) hs
    | cons c cs =>
      rw [failuresOf, solo_bind_of_ok (solo_perform rfl)]
      refine solo_bind_of_error ((solo_bind_of_ok (solo_perform rfl)).trans ?_)
      exact solo_bind_of_error (solo_withRLock_of_written (by simpa using hni))

/-- A node missed its heartbeats while there are services. -/
def MonitoringBlocks (env : Act → Choice) (s : State) (ns : List ℕ) : Prop :=
  (∃ n ∈ ns, (env (.heartbeatMissed n)).succeeds = false) ∧ s.siStorage.entries ≠ []

/-- The loop over the nodes is blocked at such a node, and otherwise gets through without events. -/
theorem solo_checkNodes (env : Act → Choice) (hni : m .niStorage = written)
    (hsi : m .siStorage = {}) (ns : List ℕ) (s : State) :
    (MonitoringBlocks env s ns ∧
      (checkNodes ns).solo exec env s m = .error (.blocked .niStorage)) ∨
    (¬ MonitoringBlocks env s ns ∧
      ∃ s', (checkNodes ns).solo exec env s m = .ok ([], s', m)) := by
  induction ns generalizing s with
  | nil => exact .inr ⟨by simp [MonitoringBlocks], s, rfl⟩
  | cons n ns ih =>
    rw [checkNodes, solo_bind_of_ok (solo_perform rfl), solo_bind_of_ok (solo_perform rfl)]
    cases hc : (env (.heartbeatMissed n)).succeeds with
    | true =>
      have hiff : MonitoringBlocks env s (n :: ns) ↔ MonitoringBlocks env s ns := by
        simp [MonitoringBlocks, hc]
      rw [hiff]
      exact ih (s.modifyNode n fun wn => { wn with schedulable := true })
    | false =>
      have hevents := solo_createWorkerNodeFailureEvents env hni hsi n
        (s.modifyNode n fun wn => { wn with schedulable := true })
      by_cases hs : s.siStorage.entries = []
      · rw [if_pos (by exact hs)] at hevents
        rcases ih ((s.modifyNode n fun wn => { wn with schedulable := true }).modifyNode
          n fun wn => { wn with schedulable := false }) with ⟨h, -⟩ | ⟨-, s', hs'⟩
        · exact absurd hs h.2
        · refine .inr ⟨fun h => h.2 hs, s', (solo_bind_of_ok hevents).trans ?_⟩
          rw [solo_bind_of_ok (solo_perform rfl), solo_bind_of_ok hs']
          rfl
      · rw [if_neg (by exact hs)] at hevents
        exact .inl ⟨⟨⟨n, List.mem_cons_self, hc⟩, hs⟩, solo_bind_of_error hevents⟩

theorem checkWorkerNodes_keepsLocks :
    KeepsLocks env s .checkWorkerNodes ↔ ¬ LockFault env s .checkWorkerNodes := by
  have hperm := (env .nodes).arrange_perm (s.niStorage.entries.map Sigma.snd)
  have hiff : MonitoringBlocks env s (walkValues s.niStorage (env .nodes)) ↔
      LockFault env s .checkWorkerNodes := by
    simp only [MonitoringBlocks, LockFault, walkValues, hperm.mem_iff]
  have hfree : noLocks .niStorage = {} := rfl
  rw [KeepsLocks, body, checkWorkerNodes, ← hiff]
  rcases solo_checkNodes env (m := Function.update noLocks .niStorage written) rfl rfl
    (walkValues s.niStorage (env .nodes)) s with ⟨hblocks, hs'⟩ | ⟨hblocks, s', hs'⟩
  · refine iff_of_false (not_returnsFrom_of_blocked .niStorage ?_) (not_not.2 hblocks)
    exact solo_bind_of_error
      (solo_withLock_of_error hfree ((solo_bind_of_ok (solo_perform rfl)).trans hs'))
  · refine iff_of_true ?_ hblocks
    refine (returnsFrom_bind_of_ok (solo_withLock_of_ok hfree
      ((solo_bind_of_ok (solo_perform rfl)).trans hs'))).2 ?_
    exact returns_handleFailure [] s'

/-! ## The exact condition -/

/-- **Lock discipline.** An operation of the control plane, run alone from any state and with any
outcomes of its calls, breaks the lock discipline exactly in the cases of `LockFault`. -/
theorem lock_discipline_iff (env : Act → Choice) (s : State) (op : Op)
    (hop : op.isOperation = true) : KeepsLocks env s op ↔ ¬ LockFault env s op := by
  cases op with
  | registerDataplane info =>
    exact iff_of_true (returnsFrom_discard.2 (returns_registerDataplane info s)) id
  | deregisterDataplane info =>
    exact iff_of_true (returnsFrom_discard.2 (returns_deregisterDataplane info s)) id
  | registerNode info => exact registerNode_keepsLocks info
  | deregisterNode nodeID =>
    exact iff_of_true (returnsFrom_discard.2 (returns_deregisterNode nodeID s)) id
  | registerService info => exact registerService_keepsLocks info
  | deregisterService name => exact deregisterService_keepsLocks name
  | handleFailure failures => exact iff_of_true (returns_handleFailure failures s) id
  | checkWorkerNodes => exact checkWorkerNodes_keepsLocks
  | _ => cases hop

def workerA : NodeInfo := ⟨"worker-a", "10.0.0.1", 10010, 8, 16⟩

theorem lock_discipline_iff_registered :
    KeepsLocks (fun _ => .ok) (newControlPlane false false) (.registerNode workerA) :=
  (lock_discipline_iff _ _ _ rfl).2 fun h => by cases h.2

/-- The persistence layer is down. -/
def storeDown : Act → Choice
  | .storeWorkerNodeInformation _ => .error
  | _ => .ok

/-- A node that cannot be stored: `RegisterNode` waits for the lock of `NIStorage`, which it holds.
-/
theorem not_lock_discipline :
    (body (.registerNode workerA)).solo exec storeDown (newControlPlane false false) noLocks =
        .error (.blocked .niStorage) ∧
      ¬ KeepsLocks storeDown (newControlPlane false false) (.registerNode workerA) :=
  ⟨rfl, not_returnsFrom_of_blocked .niStorage rfl⟩

end Dirigent.ControlPlane
