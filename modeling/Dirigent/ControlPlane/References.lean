import Dirigent.Held
import Dirigent.ControlPlane.Scaling

/-!
# References

A goroutine holds nodes, services and endpoints by their numbers. It has every number that it uses
from an argument or from an answer.

* `Act.refs`, `Act.gives`, `Op.refs` — the objects that an action takes, that its answer gives, and
  that a goroutine is started with.
* `Op.may`, `Op.mayStart`, `Op.mayJump` — which goroutines do what.
* `known` — the protocol of a goroutine that does what it may, with objects it knows.
* `Knows` — a program that follows it, with the proof rules and the operations that the locks are
  watched apart from.
-/

namespace Dirigent.ControlPlane

open DataPlane (EndpointInfo)
open Prog

inductive Ref
  | node (n : ℕ)
  | service (c : ℕ)
  | endpoint (e : ℕ)
  deriving DecidableEq, Repr

/-- The objects an action takes. -/
def Act.refs : Act → List Ref
  | .getNodeToUnlock _ n | .setNode n | .connectToWorker n | .isConnected n | .createSandbox n _
  | .deleteSandbox n _ _ | .listEndpoints n | .setSchedulability n _ | .heartbeatMissed n
  | .nodeInfo n | .endpointMapIDs n => [.node n]
  | .endpointMapSet n e _ | .endpointMapRemove n e => [.node n, .endpoint e]
  | .serviceInfo c | .closeChannel c | .casAutoscaling c | .loadAutoscaling c | .clearAutoscaling c
  | .makeStopCh c | .sendStop c | .closeStopCh c | .dropStopCh c | .selectTick c
  | .knativeScaling c _ | .offer c _ | .awaitTaken c | .receive c | .tryReceive c
  | .swapActualScale c _ | .addActualScale c _ | .isDownScalingDisabled c _ _ | .getEndpoints c
  | .searchEndpoint c _ | .excludeEndpointsOnNode c _ | .evict c _ => [.service c]
  | .newEndpoint e | .storeEndpoint e => e.node.toList.map .node
  | .getEndpoint e => [.endpoint e]
  | .setEndpoints c seen e => .service c :: .endpoint e :: seen.map .endpoint
  | .excludeEndpoints c es => .service c :: es.map .endpoint
  | .prepareEndpointInfo es => es.map .endpoint
  | _ => []

/-- The objects an answer gives. -/
def Act.gives : (a : Act) → a.Ans → List Ref
  | .getNode _, r | .getNodeToUnlock _ _, r | .place, r => r.toList.map .node
  | .getService _, r => r.toList.map .service
  | .newNode _, r => [.node r]
  | .newEndpoint _, r => [.endpoint r]
  | .nodes, r => r.map .node
  | .services, r => r.map .service
  | .getEndpoints _, r | .evict _ _, r => r.map .endpoint
  | .getEndpoint _, r => r.node.toList.map .node
  | .searchEndpoint _ _, r => r.toList.map .endpoint
  | _, _ => []

/-- The objects a goroutine is started with. -/
def Op.refs : Op → List Ref
  | .connectToWorker n | .reconstructWorker n => [.node n]
  | .precreateSnapshot c n => [.service c, .node n]
  | .scalingControllerLoop c | .scalingLoop c | .scalingLoopRound c | .takeLastValue c _ _
  | .createSandbox c => [.service c]
  | .drainAndDelete c es => .service c :: es.map .endpoint
  | .deleteVictim e => [.endpoint e]
  | _ => []

/-! ## Who does what -/

/-- The goroutine runs `ScalingControllerLoop` of the service `c`. -/
def Op.isLoopOf (c : ℕ) : Op → Bool
  | .scalingControllerLoop c' => decide (c' = c)
  | .takeLastValue c' _ _ => decide (c' = c)
  | _ => false

/-- The goroutine is the autoscaler of the service `c`. -/
def Op.isAutoscalerOf (c : ℕ) : Op → Bool
  | .scalingLoop c' => decide (c' = c)
  | .scalingLoopRound c' => decide (c' = c)
  | _ => false

/-- The goroutine enters services in `SIStorage` and starts their loops. -/
def Op.setsServices : Op → Bool
  | .registerService _ | .reconstructService _ => true
  | _ => false

def Op.startsAutoscaler : Op → Bool
  | .onMetricsReceive _ | .reconstructEndpoint _ => true
  | _ => false

/-- The goroutine sends lists of endpoints to data planes. -/
def Op.updatesEndpoints : Op → Bool
  | .registerDataplane _ | .handleFailure _ | .checkWorkerNodes | .createSandbox _
  | .reconstructEndpoint _ => true
  | _ => false

/-- The goroutine adds endpoints to the service `c`. -/
def Op.addsTo (c : ℕ) : Op → Bool
  | .createSandbox c' => decide (c' = c)
  | .reconstructEndpoint _ => true
  | _ => false

/-- The goroutine removes endpoints that have failed. -/
def Op.handlesFailures : Op → Bool
  | .handleFailure _ | .checkWorkerNodes => true
  | _ => false

def Op.removesNodes : Op → Bool
  | .deregisterNode _ => true
  | _ => false

/-- Which goroutines make which changes and calls; reading is open to all. -/
def Op.may (o : Op) : Act → Bool
  | .updateEndpointList _ _ _ => o.updatesEndpoints
  | .drainSandbox _ _ _ => (o matches .drainAndDelete _ _)
  | .createSandbox _ _ => (o matches .createSandbox _ | .precreateSnapshot _ _)
  | .deleteSandbox _ _ _ => (o matches .deleteVictim _ | .precreateSnapshot _ _)
  | .addDeployment _ _ => o.setsServices || (o matches .registerDataplane _)
  | .deleteDeployment _ _ => (o matches .deregisterService _)
  | .setDataPlane _ => (o matches .registerDataplane _ | .reconstructState)
  | .removeDataPlane _ => (o matches .registerDataplane _ | .deregisterDataplane _)
  | .newNode _ => (o matches .registerNode _ | .reconstructState)
  | .setNode _ => (o matches .registerNode _ | .reconstructWorker _)
  | .removeNode _ => (o matches .registerNode _ | .deregisterNode _)
  | .setService _ _ => o.setsServices
  | .removeService _ => (o matches .registerService _ | .deregisterService _)
  | .storeDataPlaneInformation _ => (o matches .registerDataplane _)
  | .deleteDataPlaneInformation _ => (o matches .deregisterDataplane _)
  | .storeWorkerNodeInformation _ => (o matches .registerNode _)
  | .deleteWorkerNodeInformation _ => (o matches .deregisterNode _)
  | .storeServiceInformation _ => (o matches .registerService _)
  | .deleteServiceInformation _ => (o matches .deregisterService _)
  | .closeChannel _ => (o matches .deregisterService _)
  | .casAutoscaling _ | .makeStopCh _ => o.startsAutoscaler
  | .clearAutoscaling c | .closeStopCh c | .dropStopCh c | .selectTick c | .knativeScaling c _
  | .offer c _ | .awaitTaken c => o.isAutoscalerOf c
  | .receive c | .tryReceive c | .swapActualScale c _ | .isDownScalingDisabled c _ _
  | .evict c _ => o.isLoopOf c
  | .addActualScale c _ => o.addsTo c || o.handlesFailures || o.removesNodes
  | .setEndpoints c _ _ => o.addsTo c
  | .excludeEndpoints _ _ => o.handlesFailures
  | .excludeEndpointsOnNode _ _ => o.removesNodes
  | .replaceControlPlane => (o matches .cleanControlPlaneInMemoryData)
  | _ => true

/-- Which goroutines start which. -/
def Op.mayStart (o : Op) : Op → Bool
  | .connectToWorker _ => (o matches .registerNode _)
  | .precreateSnapshot _ _ => (o matches .registerService _)
  | .scalingControllerLoop _ => o.setsServices
  | .scalingLoop _ => o.startsAutoscaler
  | .createSandbox c => o.isLoopOf c
  | .drainAndDelete c _ => o.isLoopOf c
  | .deleteVictim _ => (o matches .drainAndDelete _ _)
  | .reconstructWorker _ | .reconstructService _ => (o matches .reconstructState)
  | .reconstructEndpoint _ => (o matches .reconstructState | .reconstructEndpointsState)
  | _ => false

/-- What a goroutine may go on as. -/
def Op.mayJump : Op → Op → Bool
  | .scalingControllerLoop c, .takeLastValue c' _ _ => decide (c' = c)
  | .takeLastValue c _ _, .takeLastValue c' _ _ => decide (c' = c)
  | .takeLastValue c _ _, .scalingControllerLoop c' => decide (c' = c)
  | .scalingLoop c, .scalingLoopRound c' => decide (c' = c)
  | .scalingLoopRound c, .scalingLoopRound c' => decide (c' = c)
  | _, _ => false

/-! ## Programs that a protocol lets pass -/

section

open Protocol

variable {X : Type} {B : Protocol Lock Act Op Act.Ans X} {allowed : (a : Act) → a.Ans → Prop}
  {x : X} {c e : ℕ} {name service : String}

theorem stays_updateEndpoints (hsync : ∀ o, B.Admits x (.sync o .dataPlaneConnections))
    (hinfo : ∀ r, B.Admits x (.act (.serviceInfo c) r))
    (hips : ∀ r, B.Admits x (.act .dataPlanes r))
    (hupdate : ∀ ip name es r, B.Admits x (.act (.updateEndpointList ip name es) r))
    (es : List DataPlane.EndpointInfo) : B.Stays allowed x (updateEndpoints c es) := by
  refine stays_withLock (hsync _) (hsync _) ?_
  refine (stays_perform hinfo).bind fun info => (stays_perform hips).bind fun ips => ?_
  refine stays_forM fun ip _ => ?_
  exact (stays_perform (hupdate ip info.name es)).bind fun _ => rfl

theorem stays_addEndpointToWNStruct (hni : ∀ o, B.Admits x (.sync o .niStorage))
    (hmap : ∀ o m, B.Admits x (.sync o (.endpointMap m))) (hhalts : B.halts x)
    (hnode : ∀ r, B.Admits x (.act (.getNode name) r))
    (hset : ∀ m r, B.Admits x (.act (.endpointMapSet m e service) r)) :
    B.Stays allowed x (addEndpointToWNStruct name e service) := by
  refine (stays_withRLock (hni _) (hni _) (stays_perform hnode)).bind fun m => ?_
  cases m with
  | none => exact hhalts
  | some m => exact stays_withLock (hmap _ m) (hmap _ m) (stays_perform (hset m))

end

/-! ## What a goroutine knows -/

attribute [local simp] Op.may Op.mayStart Op.mayJump Act.refs Act.gives

/-- The protocol of a goroutine that does what it may and uses only what it knows. Its state is what
the goroutine runs and what it knows. -/
def known : Protocol Lock Act Op Act.Ans (Op × List Ref) where
  start op := (op, op.refs)
  next x
    | .act a r => (x.1, a.gives r ++ x.2)
    | _ => x
  guard x
    | .act a _ => x.1.may a = true ∧ a.refs ⊆ x.2
    | .go cs => ∀ c ∈ cs, x.1.mayStart c = true ∧ c.refs ⊆ x.2
    | .join cs => ∀ c ∈ cs, x.1.mayStart c = true ∧ c.refs ⊆ x.2
    | .jump c => x.1.mayJump c = true ∧ c.refs ⊆ x.2
    | .sync _ _ => True
  ended _ := True

/-- Any answer. -/
def anyAnswer (a : Act) (_ : a.Ans) : Prop := True

/-- Knowing `x`, the program, as part of what `o` runs, uses only what it knows. Afterwards it knows
its result, too. -/
def Knows {α : Type} (o : Op) (x : List Ref) (p : Code α) (O : α → List Ref) : Prop :=
  known.Follows anyAnswer p (fun v y => y.1 = o ∧ x ⊆ y.2 ∧ O v ⊆ y.2) (o, x)

section

variable {α β : Type} {o : Op} {x : List Ref} {p : Code α} {f : α → Code β} {O : α → List Ref}
  {O' : β → List Ref}

theorem knows_ret {v : α} (h : O v ⊆ x) : Knows o x (.ret v : Code α) O :=
  ⟨rfl, List.Subset.refl x, h⟩

theorem knows_halt : Knows o x (.halt : Code α) O := trivial

theorem knows_call {a : Act} (h : a.refs ⊆ x) (hmay : o.may a = true) :
    Knows o x (call a) a.gives :=
  fun _ _ => ⟨⟨hmay, h⟩, rfl, List.subset_append_right _ _, List.subset_append_left _ _⟩

theorem knows_jump {c : Op} (hjump : o.mayJump c = true) (h : c.refs ⊆ x) :
    Knows o x (.jump c : Code α) O := ⟨hjump, h⟩

theorem knows_start {cs : List Op} (h : ∀ c ∈ cs, o.mayStart c = true ∧ c.refs ⊆ x) :
    Knows o x (start cs) fun _ => [] := ⟨h, rfl, List.Subset.refl x, List.nil_subset x⟩

theorem knows_startAndWait {cs : List Op} (h : ∀ c ∈ cs, o.mayStart c = true ∧ c.refs ⊆ x) :
    Knows o x (startAndWait cs) fun _ => [] := ⟨h, rfl, List.Subset.refl x, List.nil_subset x⟩

theorem Knows.weaken {O₁ : α → List Ref} (h : Knows o x p O) (hO : ∀ v, O₁ v ⊆ O v) :
    Knows o x p O₁ :=
  Protocol.Follows.mono h fun v _ hy => ⟨hy.1, hy.2.1, List.Subset.trans (hO v) hy.2.2⟩

theorem knows_bind (hp : Knows o x p O)
    (hf : ∀ v y, x ⊆ y → O v ⊆ y → Knows o y (f v) O') : Knows o x (p >>= f) O' := by
  refine Protocol.follows_bind.2 (Protocol.Follows.mono hp ?_)
  rintro v ⟨_, y⟩ ⟨rfl, hxy, hv⟩
  exact Protocol.Follows.mono (hf v y hxy hv) fun w z hz =>
    ⟨hz.1, List.Subset.trans hxy hz.2.1, hz.2.2⟩

theorem knows_sync (op : LockOp) (l : Lock) :
    Knows o x (.sync op l (.ret ()) : Code Unit) fun _ => [] :=
  ⟨trivial, rfl, List.Subset.refl x, List.nil_subset x⟩

theorem knows_withLock {l : Lock} (hp : ∀ y, x ⊆ y → Knows o y p O) :
    Knows o x (withLock l p) O :=
  knows_bind (knows_sync .lock l) fun _ y hy _ => knows_bind (hp y hy) fun _ _ _ hv =>
    knows_bind (knows_sync .unlock l) fun _ _ hz _ => knows_ret (List.Subset.trans hv hz)

theorem knows_withRLock {l : Lock} (hp : ∀ y, x ⊆ y → Knows o y p O) :
    Knows o x (withRLock l p) O :=
  knows_bind (knows_sync .rlock l) fun _ y hy _ => knows_bind (hp y hy) fun _ _ _ hv =>
    knows_bind (knows_sync .runlock l) fun _ _ hz _ => knows_ret (List.Subset.trans hv hz)

theorem knows_forM {γ : Type} {vs : List γ} {f : γ → Code PUnit}
    (hf : ∀ v ∈ vs, ∀ y, x ⊆ y → Knows o y (f v) fun _ => []) :
    Knows o x (forM vs f) fun _ => [] := by
  have hloop : known.Follows anyAnswer (forM vs f) (fun _ y => y.1 = o ∧ x ⊆ y.2) (o, x) := by
    refine Protocol.follows_forM (I := fun y : Op × List Ref => y.1 = o ∧ x ⊆ y.2)
      ⟨rfl, List.Subset.refl x⟩ ?_
    rintro v hv ⟨_, y⟩ ⟨rfl, hy⟩
    exact Protocol.Follows.mono (hf v hv y hy) fun _ z hz => ⟨hz.1, List.Subset.trans hy hz.2.1⟩
  exact Protocol.Follows.mono hloop fun _ y hy => ⟨hy.1, hy.2, List.nil_subset _⟩

theorem knows_step {a : Act} {f : a.Ans → Code β} (ha : a.refs ⊆ x) (hmay : o.may a = true)
    (hf : ∀ r y, x ⊆ y → a.gives r ⊆ y → Knows o y (f r) O') : Knows o x (call a >>= f) O' :=
  knows_bind (knows_call ha hmay) hf

/-- An action that takes no object, and whose answer gives none that matters. -/
theorem knows_skip {a : Act} {f : a.Ans → Code β} (ha : a.refs = []) (hmay : o.may a = true)
    (hf : ∀ r y, x ⊆ y → Knows o y (f r) O') : Knows o x (call a >>= f) O' :=
  knows_step (ha ▸ List.nil_subset x) hmay fun r y hy _ => hf r y hy

theorem knows_unit (v : α) : Knows o x (.ret v : Code α) fun _ => [] :=
  knows_ret (List.nil_subset x)

theorem one_subset {v : Ref} (h : v ∈ x) : [v] ⊆ x := by simpa using h

end

variable {o : Op} {x : List Ref} {c e n : ℕ}

/-! ### Operations that leave by other ways than they came -/

theorem knows_registerNode (info : NodeInfo) :
    Knows (.registerNode info) x (registerNode info) fun _ => [] := by
  refine knows_step (List.nil_subset x) rfl fun wn y₁ _ hwn => knows_withLock fun y₂ h₂ =>
    knows_skip rfl rfl fun node y₃ h₃ => ?_
  have hwn₃ : Ref.node wn ∈ y₃ := h₃ (h₂ (hwn (List.mem_singleton_self _)))
  split
  · exact knows_unit _
  · refine knows_skip rfl rfl fun stored y₄ h₄ => ?_
    cases stored with
    | false =>
      exact knows_bind (knows_withLock fun _ _ => knows_call (List.nil_subset _) rfl) fun _ _ _ _ =>
        knows_unit _
    | true =>
      refine knows_step (one_subset (h₄ hwn₃)) rfl fun _ y₅ h₅ _ =>
        knows_bind (knows_start fun c hc => ?_) fun _ y₆ h₆ _ => ?_
      · obtain rfl := List.mem_singleton.1 hc
        exact ⟨rfl, one_subset (h₅ (h₄ hwn₃))⟩
      · exact knows_step (one_subset (h₆ (h₅ (h₄ hwn₃)))) rfl fun _ _ _ _ => knows_unit _

theorem knows_removeEndointsAssociatedWithNode (nodeID : String) :
    Knows (.deregisterNode nodeID) x (removeEndointsAssociatedWithNode nodeID) fun _ => [] := by
  refine knows_withLock fun _ _ => knows_step (List.nil_subset _) rfl fun cs y₁ _ hcs =>
    knows_forM fun c hc y₂ h₂ => ?_
  have hc₂ : Ref.service c ∈ y₂ := h₂ (hcs (List.mem_map_of_mem hc))
  refine knows_bind (knows_sync .lock _) fun _ y₃ h₃ _ =>
    knows_step (one_subset (h₃ hc₂)) rfl fun removed y₄ h₄ _ => ?_
  cases removed with
  | none => exact knows_halt
  | some k =>
    exact knows_bind (knows_sync .unlock _) fun _ y₅ h₅ _ =>
      (knows_call (one_subset (h₅ (h₄ (h₃ hc₂)))) (by simp [Op.removesNodes])).weaken
        fun _ => List.nil_subset _

theorem knows_notifyDataplanesAndStartScalingLoop (ho : o.setsServices = true) (info : ServiceInfo)
    (r : Bool) : Knows o x (notifyDataplanesAndStartScalingLoop info r) fun _ => [] := by
  have hnotify : Knows o x (notifyDataplanes info.name) fun _ => [] :=
    knows_withLock fun _ _ => knows_skip rfl rfl fun _ _ _ => knows_forM fun _ _ _ _ =>
      knows_skip rfl (by simp [ho]) (fun _ _ _ => knows_unit _)
  refine knows_bind hnotify fun _ _ _ _ => knows_skip rfl ho (fun _ _ _ =>
    knows_step (List.nil_subset _) rfl fun service y _ hservice => ?_)
  cases service with
  | none => exact knows_halt
  | some c =>
    refine knows_bind (knows_start fun op hop => ?_) fun _ _ _ _ => knows_unit _
    obtain rfl := List.mem_singleton.1 hop
    exact ⟨ho, hservice⟩

theorem knows_registerService (info : ServiceInfo) :
    Knows (.registerService info) x (registerService info) fun _ => [] := by
  refine knows_withLock fun _ _ => knows_skip rfl rfl fun service _ _ => ?_
  split
  · exact knows_unit _
  · refine knows_skip rfl rfl fun stored _ _ => ?_
    cases stored with
    | false =>
      exact knows_bind (knows_withLock fun _ _ => knows_call (List.nil_subset _) rfl) fun _ _ _ _ =>
        knows_unit _
    | true =>
      refine knows_bind (knows_notifyDataplanesAndStartScalingLoop rfl info false)
        fun err _ _ _ => ?_
      split
      · exact knows_bind (knows_withLock fun _ _ => knows_call (List.nil_subset _) rfl)
          fun _ _ _ _ =>
          knows_unit _
      · refine knows_skip rfl rfl fun precreate _ _ => ?_
        cases precreate with
        | false => exact knows_unit _
        | true =>
          refine knows_bind (O := fun _ => []) ?_ fun _ _ _ _ => knows_unit _
          refine knows_withLock fun _ _ => knows_step (List.nil_subset _) rfl fun c y₁ _ hc =>
            knows_step (List.nil_subset _) rfl fun ns y₂ h₂ hns => ?_
          cases c with
          | none => exact knows_halt
          | some c =>
            refine knows_startAndWait fun op hop => ?_
            obtain ⟨n, hn, rfl⟩ := List.mem_map.1 hop
            have hc₂ : Ref.service c ∈ y₂ := h₂ (hc (List.mem_singleton_self _))
            exact ⟨rfl, by simpa [Op.refs] using ⟨hc₂, hns (List.mem_map_of_mem hn)⟩⟩

theorem knows_deleteDeployments (name : String) (ips : List String) :
    Knows (.deregisterService name) x (deleteDeployments name ips) fun _ => [] := by
  induction ips generalizing x with
  | nil => exact knows_unit _
  | cons ip ips ih =>
    refine knows_skip rfl rfl fun ok _ _ => ?_
    cases ok with
    | false => exact knows_unit _
    | true => exact ih

theorem knows_removeServiceFromDataplane (name : String) :
    Knows (.deregisterService name) x (removeServiceFromDataplane name) fun _ => [] := by
  refine knows_bind (knows_sync .lock _) fun _ _ _ _ => knows_skip rfl rfl fun ips _ _ =>
    knows_bind (knows_deleteDeployments name ips) fun ok _ _ _ => ?_
  cases ok with
  | false => exact knows_unit _
  | true => exact knows_bind (knows_sync .unlock _) fun _ _ _ _ => knows_unit _

theorem knows_removeEndpointFromWNStruct (he : .endpoint e ∈ x) :
    Knows o x (removeEndpointFromWNStruct e) fun _ => [] := by
  refine knows_step (one_subset he) rfl fun endpoint y₁ h₁ hnode => ?_
  cases hn : endpoint.node with
  | none => exact knows_unit _
  | some wn =>
    have hwn : Ref.node wn ∈ y₁ := hnode (by simp [hn])
    refine knows_step (one_subset hwn) rfl fun info y₂ h₂ _ =>
      knows_step (List.nil_subset _) rfl fun node y₃ h₃ hnode₃ => ?_
    cases node with
    | none => exact knows_halt
    | some n =>
      have hn₃ : Ref.node n ∈ y₃ := hnode₃ (List.mem_singleton_self _)
      refine knows_bind (knows_sync .lock _) fun _ y₄ h₄ _ =>
        knows_step (one_subset (h₄ hn₃)) rfl fun deferred y₅ h₅ _ => ?_
      cases deferred with
      | none => exact knows_halt
      | some d =>
        refine knows_step (List.nil_subset _) rfl fun node y₆ h₆ hnode₆ => ?_
        cases node with
        | none => exact knows_halt
        | some m =>
          have hm₆ : Ref.node m ∈ y₆ := hnode₆ (List.mem_singleton_self _)
          have he₆ : Ref.endpoint e ∈ y₆ := h₆ (h₅ (h₄ (h₃ (h₂ (h₁ he)))))
          refine knows_step ?_ rfl fun _ _ _ _ => knows_sync .unlock _
          simpa using ⟨hm₆, he₆⟩

end Dirigent.ControlPlane
