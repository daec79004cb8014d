import Dirigent.ControlPlane.References

/-!
# Which locks the control plane takes

The locks of the control plane as `Protocol.locks` sees them, for any set `T` of locks that is of
interest. What an operation knows and what it holds are shown in one walk over its program.

* `Op.needs` — the locks an operation has for an action; `Op.nests` — the locks it takes while it
  holds another; `Op.takes` — those it takes at all.
* `Discipline` — what the outcomes of calls must be for the locks in `T` to be given back, and for
  operations to take no lock twice (`strict`).
* `Obeys` — a program that follows `known` and gives back the locks it takes.
* `obeys_body` — every operation does, with `knows_body` and `follows_locks`.
-/

namespace Dirigent.ControlPlane

open DataPlane (EndpointInfo)
open Prog Protocol

/-- The locks that an operation holds for an action. -/
def Op.needs (o : Op) : Act → List (Lock × Bool)
  | .closeChannel _ | .removeService _ | .setService _ _ | .services | .storeServiceInformation _
  | .deleteServiceInformation _ => [(.siStorage, true)]
  | .setNode _ | .removeNode _ | .storeWorkerNodeInformation _ | .deleteWorkerNodeInformation _ =>
    [(.niStorage, true)]
  | .removeDataPlane _ | .addDeployment _ _ | .deleteDeployment _ _ | .updateEndpointList _ _ _
  | .storeDataPlaneInformation _ | .deleteDataPlaneInformation _ => [(.dataPlaneConnections, true)]
  | .searchEndpoint c _ | .excludeEndpoints c _ | .excludeEndpointsOnNode c _ | .evict c _ =>
    [(.endpointLock c, true)]
  | .setEndpoints c _ _ =>
    if o matches .reconstructEndpoint _ then [(.endpointLock c, true)] else []
  | .getService _ => if o.startsAutoscaler then [(.siStorage, false)] else []
  | _ => []

/-- The locks that an operation takes while it holds another. It takes a lock twice only where a
call failed, where snapshots are made, and in the placement and the monitoring of nodes. -/
def Op.nests (strict : Bool) : Op → Lock → Lock → Bool
  | .registerDataplane _, .siStorage, .dataPlaneConnections => true
  | .deregisterDataplane _, .siStorage, .dataPlaneConnections => true
  | .registerNode _, .niStorage, .niStorage => !strict
  | .deregisterNode _, .niStorage, .siStorage => true
  | .deregisterNode _, .niStorage, .endpointLock _ => true
  | .deregisterNode _, .siStorage, .endpointLock _ => true
  | .registerService _, .siStorage, .dataPlaneConnections => true
  | .registerService _, .siStorage, .siStorage => !strict
  | .deregisterService _, .siStorage, .dataPlaneConnections => true
  | .reconstructService _, .siStorage, .dataPlaneConnections => true
  | .handleFailure _, .endpointLock _, .endpointMap _ => true
  | .handleFailure _, .endpointLock _, .dataPlaneConnections => true
  | .checkWorkerNodes, .niStorage, .siStorage => true
  | .checkWorkerNodes, .niStorage, .niStorage => true
  | .checkWorkerNodes, .siStorage, .niStorage => true
  | .checkWorkerNodes, .niStorage, .endpointMap _ => true
  | .checkWorkerNodes, .siStorage, .endpointMap _ => true
  | .checkWorkerNodes, .endpointLock _, .endpointMap _ => true
  | .checkWorkerNodes, .endpointLock _, .dataPlaneConnections => true
  | .createSandbox _, .niStorage, .niStorage => true
  | _, _, _ => false

/-- The locks that an operation takes at all, for writing or for reading, where it is one that a
scaling loop starts. -/
def Op.takes (o : Op) (write : Bool) : Lock → Bool
  | .niStorage => !(o matches .drainAndDelete _ _) && !(write && (o matches .createSandbox _))
  | .endpointMap _ => !(o matches .drainAndDelete _ _)
  | .siStorage | .endpointLock _ => !(o matches .createSandbox _ | .drainAndDelete _ _)
  | .dataPlaneConnections => true

/-- The operation takes `l`, and nothing that it holds keeps it from that. -/
def MayTake (strict : Bool) (o : Op) (write : Bool) (h : List (Lock × Bool)) (l : Lock) : Prop :=
  o.takes write l = true ∧ ∀ p ∈ h, o.nests strict p.1 l = true

/-- The locks that an operation holds while it waits for goroutines. -/
def Op.waitsWith (strict : Bool) (o : Op) : Lock → Bool
  | .endpointLock c => o.isLoopOf c
  | .siStorage => !strict
  | _ => false

/-- The rules as `Protocol.locks` takes them. -/
def lockRules (T : Lock → Bool) (strict : Bool) (o : Op) (h : List (Lock × Bool)) :
    Label Lock Act Op Act.Ans → Prop
  | .act a _ => ∀ p ∈ o.needs a, T p.1 = true → p ∈ h
  | .sync .lock l => MayTake strict o true h l
  | .sync .rlock l => MayTake strict o false h l
  | .join _ => ∀ p ∈ h, o.waitsWith strict p.1 = true
  | _ => True

/-- The outcomes of calls for which the locks in `T` are given back and, if `strict`, no operation
waits for a lock of its own. -/
structure Discipline (T : Lock → Bool) (strict : Bool) (allowed : (a : Act) → a.Ans → Prop) :
    Prop where
  deployments : T .dataPlaneConnections = true →
    ∀ ip name r, allowed (.deleteDeployment ip name) r → r = true
  maps : (∀ n, T (.endpointMap n) = false) ∨
    ∀ name n r, allowed (.getNodeToUnlock name n) r → r = none ∨ r = some n
  workers : strict = true → ∀ info r, allowed (.storeWorkerNodeInformation info) r → r = true
  services : strict = true → ∀ info r, allowed (.storeServiceInformation info) r → r = true
  snapshots : strict = true → ∀ r, allowed .precreateSnapshots r → r = false

section

variable {T : Lock → Bool} {strict : Bool} {allowed : (a : Act) → a.Ans → Prop} {o : Op}
  {h : List (Lock × Bool)} {α : Type} {p : Code α} {a : Act}

/-! ## Rules -/

theorem rule_free (ha : o.needs a = []) (r : a.Ans) : lockRules T strict o h (.act a r) := by
  intro p hp
  rw [ha] at hp
  cases hp

theorem rule_needs {l : Lock} {b : Bool} (ha : o.needs a = [(l, b)]) (hl : T l = true → (l, b) ∈ h)
    (r : a.Ans) : lockRules T strict o h (.act a r) := by
  intro p hp hT
  rw [ha] at hp
  obtain rfl := List.mem_singleton.1 hp
  exact hl hT

theorem mayTake_nil {l : Lock} {write : Bool} (hl : o.takes write l = true) :
    MayTake strict o write [] l := ⟨hl, fun p hp => by cases hp⟩

theorem MayTake.taking {l l' : Lock} {write b : Bool} (hh : MayTake strict o write h l')
    (hl : o.nests strict l l' = true) : MayTake strict o write (taking T l b h) l' := by
  refine ⟨hh.1, fun p hp => ?_⟩
  rcases mem_taking hp with rfl | hp
  · exact hl
  · exact hh.2 p hp

theorem keeps_free {β : Type} {f : a.Ans → Code β} (ha : o.needs a = [])
    (hf : ∀ r, allowed a r → Keeps T (lockRules T strict) allowed o h (f r)) :
    Keeps T (lockRules T strict) allowed o h (call a >>= f) := keeps_step (rule_free ha) hf

theorem keeps_call (ha : o.needs a = []) : Keeps T (lockRules T strict) allowed o h (call a) :=
  keeps_perform (rule_free ha)

theorem keeps_locked {l : Lock} (hl : MayTake strict o true h l)
    (hp : Keeps T (lockRules T strict) allowed o (taking T l true h) p) :
    Keeps T (lockRules T strict) allowed o h (withLock l p) := keeps_withLock hl trivial hp

end

/-! ## What is known and what is held -/

/-- What is watched: the locks of interest, whether a lock may be taken twice, and the answers. -/
structure Watch where
  T : Lock → Bool
  strict : Bool
  allowed : (a : Act) → a.Ans → Prop

/-- As part of `o`, the program uses only what it knows and gives back the locks it takes. -/
structure Obeys {α : Type} (w : Watch) (o : Op) (h : List (Lock × Bool)) (x : List Ref) (p : Code α)
    (O : α → List Ref) : Prop where
  knows : Knows o x p O
  keeps : Keeps w.T (lockRules w.T w.strict) w.allowed o h p

section

variable {w : Watch} {α β : Type} {o : Op} {h : List (Lock × Bool)} {x : List Ref} {p : Code α}
  {f : α → Code β} {O : α → List Ref} {O' : β → List Ref} {a : Act} {l : Lock} {b : Bool}

theorem obeys_ret {v : α} (hv : O v ⊆ x) : Obeys w o h x (.ret v : Code α) O :=
  ⟨knows_ret hv, keeps_ret v⟩

theorem obeys_unit (v : α) : Obeys w o h x (.ret v : Code α) fun _ => [] :=
  obeys_ret (List.nil_subset x)

theorem obeys_halt : Obeys w o h x (.halt : Code α) O := ⟨knows_halt, keeps_halt⟩

theorem obeys_jump {c : Op} (hjump : o.mayJump c = true) (hc : c.refs ⊆ x) :
    Obeys w o [] x (.jump c : Code α) O := ⟨knows_jump hjump hc, keeps_jump trivial⟩

theorem obeys_start {cs : List Op} (hcs : ∀ c ∈ cs, o.mayStart c = true ∧ c.refs ⊆ x) :
    Obeys w o h x (start cs) fun _ => [] := ⟨knows_start hcs, keeps_start trivial⟩

theorem obeys_startAndWait {cs : List Op} (hh : ∀ p ∈ h, o.waitsWith w.strict p.1 = true)
    (hcs : ∀ c ∈ cs, o.mayStart c = true ∧ c.refs ⊆ x) :
    Obeys w o h x (startAndWait cs) fun _ => [] := ⟨knows_startAndWait hcs, keeps_startAndWait hh⟩

theorem Obeys.weaken {O₁ : α → List Ref} (hp : Obeys w o h x p O) (hO : ∀ v, O₁ v ⊆ O v) :
    Obeys w o h x p O₁ := ⟨hp.knows.weaken hO, hp.keeps⟩

theorem obeys_bind (hp : Obeys w o h x p O)
    (hf : ∀ v y, x ⊆ y → O v ⊆ y → Obeys w o h y (f v) O') : Obeys w o h x (p >>= f) O' := by
  refine ⟨knows_bind hp.knows fun v y hy hv => (hf v y hy hv).knows,
    keeps_bind hp.keeps fun v => ?_⟩
  exact (hf v (x ++ O v) (List.subset_append_left _ _) (List.subset_append_right _ _)).keeps

theorem obeys_withLock (hl : MayTake w.strict o true h l)
    (hp : ∀ y, x ⊆ y → Obeys w o (taking w.T l true h) y p O) : Obeys w o h x (withLock l p) O :=
  ⟨knows_withLock fun y hy => (hp y hy).knows,
    keeps_locked hl (hp x (List.Subset.refl x)).keeps⟩

theorem obeys_withRLock (hl : MayTake w.strict o false h l)
    (hp : ∀ y, x ⊆ y → Obeys w o (taking w.T l false h) y p O) : Obeys w o h x (withRLock l p) O :=
  ⟨knows_withRLock fun y hy => (hp y hy).knows,
    keeps_withRLock hl trivial (hp x (List.Subset.refl x)).keeps⟩

theorem obeys_forM {γ : Type} {vs : List γ} {f : γ → Code PUnit}
    (hf : ∀ v ∈ vs, ∀ y, x ⊆ y → Obeys w o h y (f v) fun _ => []) :
    Obeys w o h x (forM vs f) fun _ => [] :=
  ⟨knows_forM fun v hv y hy => (hf v hv y hy).knows,
    keeps_forM fun v hv => (hf v hv x (List.Subset.refl x)).keeps⟩

theorem obeys_call (ha : a.refs ⊆ x) (hmay : o.may a = true) (hneeds : o.needs a = []) :
    Obeys w o h x (call a) a.gives := ⟨knows_call ha hmay, keeps_call hneeds⟩

theorem obeys_callLocked (ha : a.refs ⊆ x) (hmay : o.may a = true) (hneeds : o.needs a = [(l, b)])
    (hl : w.T l = true → (l, b) ∈ h) : Obeys w o h x (call a) a.gives :=
  ⟨knows_call ha hmay, keeps_perform (rule_needs hneeds hl)⟩

variable {f : a.Ans → Code β}

theorem obeys_step (ha : a.refs ⊆ x) (hmay : o.may a = true) (hneeds : o.needs a = [])
    (hf : ∀ r y, x ⊆ y → a.gives r ⊆ y → Obeys w o h y (f r) O') :
    Obeys w o h x (call a >>= f) O' := obeys_bind (obeys_call ha hmay hneeds) hf

theorem obeys_locked (ha : a.refs ⊆ x) (hmay : o.may a = true) (hneeds : o.needs a = [(l, b)])
    (hl : w.T l = true → (l, b) ∈ h)
    (hf : ∀ r y, x ⊆ y → a.gives r ⊆ y → Obeys w o h y (f r) O') :
    Obeys w o h x (call a >>= f) O' := obeys_bind (obeys_callLocked ha hmay hneeds hl) hf

/-- An action that takes no object, and whose answer gives none that matters. -/
theorem obeys_skip (ha : a.refs = []) (hmay : o.may a = true) (hneeds : o.needs a = [])
    (hf : ∀ r y, x ⊆ y → Obeys w o h y (f r) O') : Obeys w o h x (call a >>= f) O' :=
  obeys_step (ha ▸ List.nil_subset x) hmay hneeds fun r y hy _ => hf r y hy

theorem obeys_skipLocked (ha : a.refs = []) (hmay : o.may a = true) (hneeds : o.needs a = [(l, b)])
    (hl : w.T l = true → (l, b) ∈ h) (hf : ∀ r y, x ⊆ y → Obeys w o h y (f r) O') :
    Obeys w o h x (call a >>= f) O' :=
  obeys_locked (ha ▸ List.nil_subset x) hmay hneeds hl fun r y hy _ => hf r y hy

end

variable {T : Lock → Bool} {strict : Bool} {allowed : (a : Act) → a.Ans → Prop} {w : Watch} {o : Op}
  {h : List (Lock × Bool)} {x : List Ref} {c e n : ℕ} {cs ns : List ℕ}

/-! ## Data planes -/

theorem obeys_singlethreadUpdateEndpoints (ho : o.updatesEndpoints = true) (es : List EndpointInfo)
    (hc : .service c ∈ x)
    (hh : w.T .dataPlaneConnections = true → (.dataPlaneConnections, true) ∈ h) :
    Obeys w o h x (singlethreadUpdateEndpoints c es) fun _ => [] :=
  obeys_step (one_subset hc) rfl rfl fun _ _ _ _ => obeys_skip rfl rfl rfl fun _ _ _ =>
    obeys_forM fun _ _ _ _ => obeys_skipLocked rfl ho rfl hh fun _ _ _ => obeys_unit _

theorem obeys_updateEndpoints (ho : o.updatesEndpoints = true) (es : List EndpointInfo)
    (hc : .service c ∈ x) (hh : MayTake w.strict o true h .dataPlaneConnections) :
    Obeys w o h x (updateEndpoints c es) fun _ => [] :=
  obeys_withLock hh fun _ hy => obeys_singlethreadUpdateEndpoints ho es (hy hc) mem_taking_self

theorem obeys_addDeployments {info : DataplaneInfo} (ip : String) (hcs : cs.map Ref.service ⊆ x)
    (hh : w.T .dataPlaneConnections = true → (.dataPlaneConnections, true) ∈ h) :
    Obeys w (.registerDataplane info) h x (addDeployments ip cs) fun _ => [] := by
  induction cs generalizing x with
  | nil => exact obeys_unit _
  | cons c cs ih =>
    obtain ⟨hc, hcs⟩ := List.cons_subset.1 hcs
    refine obeys_step (one_subset hc) rfl rfl fun _ y₁ h₁ _ =>
      obeys_skipLocked rfl rfl rfl hh fun ok y₂ h₂ => ?_
    cases ok with
    | false => exact obeys_skipLocked rfl rfl rfl hh fun _ _ _ => obeys_unit _
    | true =>
      refine obeys_step (one_subset (h₂ (h₁ hc))) rfl rfl fun es y₃ h₃ hes =>
        obeys_step hes rfl rfl fun _ y₄ h₄ _ => ?_
      refine obeys_bind (obeys_singlethreadUpdateEndpoints rfl _ (h₄ (h₃ (h₂ (h₁ hc)))) hh)
        fun _ y₅ h₅ _ => ih fun v hv => ?_
      exact h₅ (h₄ (h₃ (h₂ (h₁ (hcs hv)))))

theorem obeys_registerDataplane (info : DataplaneInfo) :
    Obeys w (.registerDataplane info) [] x (registerDataplane info) fun _ => [] := by
  refine obeys_withLock (mayTake_nil rfl) fun _ _ =>
    obeys_withLock ((mayTake_nil rfl).taking rfl) fun _ _ =>
    obeys_skip rfl rfl rfl fun present _ _ => ?_
  cases present with
  | true => exact obeys_unit _
  | false =>
    refine obeys_skipLocked rfl rfl rfl mem_taking_self fun stored _ _ => ?_
    cases stored with
    | false => exact obeys_skipLocked rfl rfl rfl mem_taking_self fun _ _ _ => obeys_unit _
    | true =>
      refine obeys_skip rfl rfl rfl fun connected _ _ => ?_
      cases connected with
      | false => exact obeys_skipLocked rfl rfl rfl mem_taking_self fun _ _ _ => obeys_unit _
      | true =>
        have hsi : w.T .siStorage = true → (.siStorage, true) ∈
            taking w.T .dataPlaneConnections true (taking w.T .siStorage true []) :=
          fun hT => mem_taking_of_mem (mem_taking_self hT)
        exact obeys_skip rfl rfl rfl fun _ _ _ =>
          obeys_locked (List.nil_subset _) rfl rfl hsi fun _ _ _ hcs =>
            obeys_bind (obeys_addDeployments _ hcs mem_taking_self) fun _ _ _ _ => obeys_unit _

theorem obeys_deregisterDataplane (info : DataplaneInfo) :
    Obeys w (.deregisterDataplane info) [] x (deregisterDataplane info) fun _ => [] := by
  refine obeys_withLock (mayTake_nil rfl) fun _ _ =>
    obeys_withLock ((mayTake_nil rfl).taking rfl) fun _ _ =>
    obeys_skip rfl rfl rfl fun present _ _ => ?_
  cases present with
  | false => exact obeys_unit _
  | true =>
    refine obeys_skipLocked rfl rfl rfl mem_taking_self fun deleted _ _ => ?_
    cases deleted with
    | false => exact obeys_unit _
    | true => exact obeys_skipLocked rfl rfl rfl mem_taking_self fun _ _ _ => obeys_unit _

/-! ## Nodes -/

theorem keeps_registerNode (hd : Discipline T strict allowed) (info : NodeInfo) :
    Keeps T (lockRules T strict) allowed (.registerNode info) [] (registerNode info) := by
  refine keeps_free rfl fun wn _ => keeps_locked (mayTake_nil rfl) (keeps_free rfl fun node _ => ?_)
  split
  · exact keeps_ret _
  · refine keeps_step (rule_needs rfl mem_taking_self) fun stored hstored => ?_
    cases stored with
    | true =>
      exact keeps_step (rule_needs rfl mem_taking_self) fun _ _ =>
        keeps_bind (keeps_start trivial) fun _ => keeps_free rfl fun _ _ => keeps_ret _
    | false =>
      -- the lock is taken a second time
      cases hs : strict with
      | true => cases hd.workers hs info false hstored
      | false =>
        refine keeps_bind (keeps_locked ((mayTake_nil rfl).taking rfl) ?_) fun _ => keeps_ret _
        exact keeps_perform (rule_needs rfl mem_taking_self)

theorem keeps_removeEndointsAssociatedWithNode (nodeID : String) :
    Keeps T (lockRules T strict) allowed (.deregisterNode nodeID) (taking T .niStorage true [])
      (removeEndointsAssociatedWithNode nodeID) := by
  refine keeps_locked ((mayTake_nil rfl).taking rfl)
    (keeps_step (rule_needs rfl mem_taking_self) fun cs _ => keeps_forM fun c _ => ?_)
  refine follows_lock (((mayTake_nil rfl).taking rfl).taking rfl) ?_
  refine follows_perform.2 fun removed _ => ⟨⟨rule_needs rfl mem_taking_self removed, trivial⟩, ?_⟩
  cases removed with
  | none => exact trivial
  | some k => exact follows_unlock trivial (keeps_call rfl)

theorem obeys_deregisterNode (nodeID : String) :
    Obeys w (.deregisterNode nodeID) [] x (deregisterNode nodeID) fun _ => [] := by
  refine obeys_withLock (mayTake_nil rfl) fun _ _ => obeys_skip rfl rfl rfl fun node _ _ => ?_
  split
  · refine obeys_skipLocked rfl rfl rfl mem_taking_self fun deleted _ _ => ?_
    cases deleted with
    | false => exact obeys_unit _
    | true =>
      exact obeys_bind ⟨knows_removeEndointsAssociatedWithNode nodeID,
        keeps_removeEndointsAssociatedWithNode nodeID⟩ fun _ _ _ _ =>
          obeys_skipLocked rfl rfl rfl mem_taking_self fun _ _ _ => obeys_unit _
  · exact obeys_unit _

theorem obeys_getNodeNoCheck (nodeID : String) :
    Obeys w o h x (getNodeNoCheck nodeID) fun n => [.node n] := by
  refine obeys_step (List.nil_subset x) rfl rfl fun node y _ hnode => ?_
  cases node with
  | none => exact obeys_halt
  | some n => exact obeys_ret hnode

theorem obeys_nodeHeartbeat (nodeID : String) :
    Obeys w (.nodeHeartbeat nodeID) h x (nodeHeartbeat nodeID) fun _ => [] := by
  refine obeys_skip rfl rfl rfl fun node _ _ => ?_
  split
  · refine obeys_bind (obeys_getNodeNoCheck nodeID) fun _ _ _ _ =>
      obeys_bind (obeys_getNodeNoCheck nodeID) fun _ _ _ _ =>
        obeys_bind (obeys_getNodeNoCheck nodeID) fun _ _ _ _ =>
          obeys_bind (obeys_getNodeNoCheck nodeID) fun n y _ hn => ?_
    exact obeys_step hn rfl rfl fun _ _ _ _ => obeys_unit _
  · exact obeys_unit _

/-! ## Services -/

/-- It answers no error. -/
theorem follows_notifyDataplanesAndStartScalingLoop (ho : o.startsAutoscaler = false)
    (hh : MayTake strict o true h .dataPlaneConnections)
    (hsi : T .siStorage = true → (.siStorage, true) ∈ h) (info : ServiceInfo) (r : Bool) :
    (locks T (lockRules T strict)).Follows allowed (notifyDataplanesAndStartScalingLoop info r)
      (fun err y => err = none ∧ y = (o, h)) (o, h) := by
  have hnotify : Keeps T (lockRules T strict) allowed o h (notifyDataplanes info.name) :=
    keeps_locked hh (keeps_free rfl fun _ _ => keeps_forM fun _ _ =>
      keeps_step (rule_needs rfl mem_taking_self) fun _ _ => keeps_ret _)
  have hget : ∀ r, lockRules T strict o h (.act (.getService info.name) r) :=
    rule_free (by simp [Op.needs, ho])
  refine hnotify.bind fun _ => follows_perform.2 fun _ _ => ⟨⟨rule_needs rfl hsi _, trivial⟩, ?_⟩
  refine follows_perform.2 fun service _ => ⟨⟨hget service, trivial⟩, ?_⟩
  cases service with
  | none => exact trivial
  | some c => exact (keeps_start trivial).bind fun _ => ⟨rfl, rfl⟩

theorem keeps_registerService (hd : Discipline T strict allowed) (info : ServiceInfo) :
    Keeps T (lockRules T strict) allowed (.registerService info) [] (registerService info) := by
  refine keeps_locked (mayTake_nil rfl) (keeps_free rfl fun service _ => ?_)
  split
  · exact keeps_ret _
  · refine keeps_step (rule_needs rfl mem_taking_self) fun stored hstored => ?_
    -- where the lock is taken a second time
    have htwice : ∀ {α : Type} {p : Code α}, strict = false →
        Keeps T (lockRules T strict) allowed (.registerService info)
          (taking T .siStorage true (taking T .siStorage true [])) p →
        Keeps T (lockRules T strict) allowed (.registerService info) (taking T .siStorage true [])
          (withLock .siStorage p) := by
      rintro α p rfl hp
      exact keeps_locked ((mayTake_nil rfl).taking rfl) hp
    cases stored with
    | false =>
      cases hs : strict with
      | true => cases hd.services hs info false hstored
      | false =>
        subst hs
        refine keeps_bind (htwice rfl ?_) fun _ => keeps_ret _
        exact keeps_perform (rule_needs rfl mem_taking_self)
    | true =>
      refine follows_bind.2 (Follows.mono (follows_notifyDataplanesAndStartScalingLoop rfl
        ((mayTake_nil rfl).taking rfl) mem_taking_self info false) ?_)
      rintro err _ ⟨rfl, rfl⟩
      refine keeps_free rfl fun precreate hprecreate => ?_
      cases precreate with
      | false => exact keeps_ret _
      | true =>
        cases hs : strict with
        | true => cases hd.snapshots hs true hprecreate
        | false =>
          subst hs
          refine keeps_bind (htwice rfl ?_) fun _ => keeps_ret _
          refine keeps_free rfl fun c _ => keeps_free rfl fun ns _ => ?_
          cases c with
          | none => exact keeps_halt
          | some c =>
            refine keeps_startAndWait fun p hp => ?_
            rcases mem_taking hp with rfl | hp
            · rfl
            · rcases mem_taking hp with rfl | hp
              · rfl
              · cases hp

/-- It answers `true` if failures are not allowed. -/
theorem follows_deleteDeployments (hd : Discipline T strict allowed) (name : String)
    (ips : List String)
    (hh : T .dataPlaneConnections = true → (.dataPlaneConnections, true) ∈ h) :
    (locks T (lockRules T strict)).Follows allowed (deleteDeployments name ips)
      (fun ok y => (T .dataPlaneConnections = true → ok = true) ∧ y = (o, h)) (o, h) := by
  induction ips with
  | nil => exact ⟨fun _ => rfl, rfl⟩
  | cons ip ips ih =>
    refine follows_perform.2 fun ok hok => ⟨⟨rule_needs rfl hh ok, trivial⟩, ?_⟩
    cases ok with
    | true => exact ih
    | false =>
      refine ⟨fun hT => ?_, rfl⟩
      exact hd.deployments hT ip name false hok

/-- The error that leaves with the lock held is not allowed where the lock is watched. -/
theorem keeps_removeServiceFromDataplane (hd : Discipline T strict allowed)
    (hh : MayTake strict o true h .dataPlaneConnections) (name : String) :
    Keeps T (lockRules T strict) allowed o h (removeServiceFromDataplane name) := by
  refine follows_lock hh (follows_perform.2 fun ips _ => ⟨⟨rule_free rfl ips, trivial⟩, ?_⟩)
  refine follows_bind.2 (Follows.mono
    (follows_deleteDeployments hd name ips mem_taking_self) ?_)
  rintro ok _ ⟨hok, rfl⟩
  cases ok with
  | true => exact follows_unlock trivial rfl
  | false =>
    cases hT : T .dataPlaneConnections with
    | true => cases hok hT
    | false =>
      have hnone : taking T .dataPlaneConnections true h = h := by simp [taking, hT]
      rw [hnone]
      exact rfl

theorem obeys_deregisterService (hd : Discipline w.T w.strict w.allowed) (name : String) :
    Obeys w (.deregisterService name) [] x (deregisterService name) fun _ => [] := by
  refine obeys_withLock (mayTake_nil rfl) fun _ _ =>
    obeys_step (List.nil_subset _) rfl rfl fun service y₁ _ hc => ?_
  cases service with
  | none => exact obeys_unit _
  | some c =>
    refine obeys_skipLocked rfl rfl rfl mem_taking_self fun deleted y₂ h₂ => ?_
    cases deleted with
    | false => exact obeys_unit _
    | true =>
      refine obeys_bind ⟨knows_removeServiceFromDataplane name,
        keeps_removeServiceFromDataplane hd ((mayTake_nil rfl).taking rfl) name⟩
          fun err y₃ h₃ _ => ?_
      split
      · exact obeys_unit _
      · have hc₃ : Ref.service c ∈ y₃ := h₃ (h₂ (hc (List.mem_singleton_self _)))
        exact obeys_locked (one_subset hc₃) rfl rfl mem_taking_self fun _ _ _ _ =>
          obeys_skipLocked rfl rfl rfl mem_taking_self fun _ _ _ => obeys_unit _

/-! ## Failures -/

theorem keeps_removeEndpointFromWNStruct (hd : Discipline T strict allowed) (e : ℕ)
    (hh : ∀ n, MayTake strict o true h (.endpointMap n)) :
    Keeps T (lockRules T strict) allowed o h (removeEndpointFromWNStruct e) := by
  refine keeps_free rfl fun endpoint _ => ?_
  cases endpoint.node with
  | none => exact keeps_ret _
  | some wn =>
    refine keeps_free rfl fun info _ => keeps_free rfl fun node _ => ?_
    cases node with
    | none => exact keeps_halt
    | some n =>
      refine follows_lock (hh n) (follows_perform.2 fun deferred hdeferred =>
        ⟨⟨rule_free rfl deferred, trivial⟩, ?_⟩)
      cases deferred with
      | none => exact trivial
      | some d =>
        refine follows_perform.2 fun node _ => ⟨⟨rule_free rfl node, trivial⟩, ?_⟩
        cases node with
        | none => exact trivial
        | some m =>
          refine follows_perform.2 fun _ _ => ⟨⟨rule_free rfl _, trivial⟩, ?_⟩
          -- what is unlocked is what was locked, or maps are not watched
          rcases hd.maps with hT | hsame
          · have hnone : ∀ l, taking T (.endpointMap l) true h = h :=
              fun l => by simp [taking, hT l]
            have hunlock : Keeps T (lockRules T strict) allowed o h (unlock (.endpointMap d)) :=
              ⟨⟨trivial, fun hT' => by simp [hT d] at hT'⟩, by simp [locks, hT d]; rfl⟩
            rw [hnone n]
            exact hunlock
          · rcases hsame info.nodeID n (some d) hdeferred with hnone | hd
            · cases hnone
            · obtain rfl := Option.some.inj hd
              exact follows_unlock trivial rfl

theorem obeys_collectEndpoints (hd : Discipline w.T w.strict w.allowed)
    (hh : ∀ n, MayTake w.strict o true h (.endpointMap n))
    (hl : w.T (.endpointLock c) = true → (.endpointLock c, true) ∈ h) (hc : .service c ∈ x)
    (cids : List String) {toRemove : List ℕ} (hes : toRemove.map Ref.endpoint ⊆ x) :
    Obeys w o h x (collectEndpoints c cids toRemove) fun es => es.map .endpoint := by
  induction cids generalizing x toRemove with
  | nil => exact obeys_ret hes
  | cons cid cids ih =>
    refine obeys_locked (one_subset hc) rfl rfl hl fun found y₁ h₁ hfound => ?_
    cases found with
    | none => exact ih (h₁ hc) fun v hv => h₁ (hes hv)
    | some e =>
      have he : Ref.endpoint e ∈ y₁ := hfound (List.mem_singleton_self _)
      refine obeys_bind ⟨knows_removeEndpointFromWNStruct he,
        keeps_removeEndpointFromWNStruct hd e hh⟩ fun _ y₂ h₂ _ => ih (h₂ (h₁ hc)) fun v hv => ?_
      obtain ⟨e', he', rfl⟩ := List.mem_map.1 hv
      rcases List.mem_insert_iff.1 he' with rfl | he'
      · exact h₂ he
      · exact h₂ (h₁ (hes (List.mem_map_of_mem he')))

/-- A goroutine that handles failures takes maps and the data planes under a controller's lock. -/
theorem handlesFailures_nests (strict : Bool) (ho : o.handlesFailures = true) (c : ℕ) :
    o.startsAutoscaler = false ∧ o.updatesEndpoints = true ∧
      (∀ n, o.nests strict (.endpointLock c) (.endpointMap n) = true) ∧
      o.nests strict (.endpointLock c) .dataPlaneConnections = true ∧
      o.takes true (.endpointLock c) = true ∧ ∀ n, o.takes true (.endpointMap n) = true := by
  cases o with
  | handleFailure failures | checkWorkerNodes =>
    exact ⟨rfl, rfl, fun _ => rfl, rfl, rfl, fun _ => rfl⟩
  | _ => cases ho

theorem obeys_removeEndpoints (hd : Discipline w.T w.strict w.allowed)
    (ho : o.handlesFailures = true) (hc : .service c ∈ x) (cids : List String) :
    Obeys w o [] x (removeEndpoints c cids) fun _ => [] := by
  obtain ⟨-, hupdates, hmaps, hdata, hlock, hmap⟩ := handlesFailures_nests w.strict ho c
  refine obeys_withLock (mayTake_nil hlock) fun y₁ h₁ => obeys_bind (obeys_collectEndpoints hd
    (fun n => (mayTake_nil (hmap n)).taking (hmaps n)) mem_taking_self (h₁ hc) cids
      (List.nil_subset _))
    fun es y₂ h₂ hes => ?_
  have hc₂ := h₂ (h₁ hc)
  refine obeys_step (one_subset hc₂) (by simp [Op.may, ho]) rfl fun _ y₃ h₃ _ =>
    obeys_locked ?_ ho rfl mem_taking_self fun _ y₄ h₄ _ => ?_
  · exact List.cons_subset.2 ⟨h₃ hc₂, fun v hv => h₃ (hes hv)⟩
  · exact obeys_step (one_subset (h₄ (h₃ hc₂))) rfl rfl fun es' y₅ h₅ hes' =>
      obeys_step hes' rfl rfl fun _ y₆ h₆ _ =>
        obeys_updateEndpoints hupdates _ (h₆ (h₅ (h₄ (h₃ hc₂)))) ((mayTake_nil rfl).taking hdata)

theorem obeys_handleFailure (hd : Discipline w.T w.strict w.allowed)
    (ho : o.handlesFailures = true) (failures : List Failure) :
    Obeys w o [] x (handleFailure failures) fun _ => [] := by
  refine obeys_forM fun failure _ y _ => ?_
  have hround : Obeys w o [] y (handleSandboxFailure failure) fun _ => [] := by
    have hstart := (handlesFailures_nests w.strict ho 0).1
    refine obeys_step (List.nil_subset _) rfl (by simp [Op.needs, hstart]) fun service y₁ _ hc => ?_
    cases service with
    | none => exact obeys_unit _
    | some c => exact obeys_removeEndpoints hd ho (hc (List.mem_singleton_self _)) _
  cases failure.type with
  | sandboxFailure | workerNodeFailure => exact hround
  | sandboxDaemonFailure => exact obeys_unit _

theorem obeys_getServicesOnWorkerNode (hn : .node n ∈ x)
    (hni : MayTake w.strict .checkWorkerNodes false h .niStorage)
    (hmap : ∀ m, MayTake w.strict .checkWorkerNodes false h (.endpointMap m)) :
    Obeys w .checkWorkerNodes h x (getServicesOnWorkerNode n) fun _ => [] := by
  refine obeys_step (one_subset hn) rfl rfl fun _ _ _ _ => obeys_bind
    (obeys_withRLock hni fun _ _ => obeys_call (List.nil_subset _) rfl rfl) fun m y₁ _ hm => ?_
  cases m with
  | none => exact obeys_unit _
  | some m =>
    refine obeys_withRLock (hmap m) fun y₂ h₂ => (obeys_call ?_ rfl rfl).weaken fun _ =>
      List.nil_subset _
    exact one_subset (h₂ (hm (List.mem_singleton_self _)))

theorem obeys_failuresOf (hn : .node n ∈ x) (hcs : cs.map Ref.service ⊆ x)
    (hni : MayTake w.strict .checkWorkerNodes false h .niStorage)
    (hmap : ∀ m, MayTake w.strict .checkWorkerNodes false h (.endpointMap m)) :
    Obeys w .checkWorkerNodes h x (failuresOf n cs) fun _ => [] := by
  induction cs generalizing x with
  | nil => exact obeys_unit _
  | cons c cs ih =>
    obtain ⟨hc, hcs⟩ := List.cons_subset.1 hcs
    refine obeys_step (one_subset hc) rfl rfl fun _ y₁ h₁ _ => obeys_bind
      (obeys_getServicesOnWorkerNode (h₁ hn) hni hmap) fun ids y₂ h₂ _ => ?_
    refine obeys_bind (ih (h₂ (h₁ hn)) fun v hv => h₂ (h₁ (hcs hv))) fun rest _ _ _ => ?_
    split <;> exact obeys_unit _

theorem obeys_checkNodes (hns : ns.map Ref.node ⊆ x) :
    Obeys w .checkWorkerNodes (taking w.T .niStorage true []) x (checkNodes ns) fun _ => [] := by
  induction ns generalizing x with
  | nil => exact obeys_unit _
  | cons n ns ih =>
    obtain ⟨hn, hns⟩ := List.cons_subset.1 hns
    refine obeys_step (one_subset hn) rfl rfl fun _ y₁ h₁ _ =>
      obeys_step (one_subset (h₁ hn)) rfl rfl fun missed y₂ h₂ _ => ?_
    cases missed with
    | false => exact ih fun v hv => h₂ (h₁ (hns hv))
    | true =>
      have hevents : Obeys w .checkWorkerNodes (taking w.T .niStorage true []) y₂
          (createWorkerNodeFailureEvents n) fun _ => [] :=
        obeys_withLock ((mayTake_nil rfl).taking rfl) fun y₃ h₃ =>
          obeys_locked (List.nil_subset _) rfl rfl mem_taking_self fun cs y₄ h₄ hcs =>
            obeys_failuresOf (h₄ (h₃ (h₂ (h₁ hn)))) hcs (((mayTake_nil rfl).taking rfl).taking rfl)
              fun m => ((mayTake_nil rfl).taking rfl).taking rfl
      refine obeys_bind hevents fun events y₃ h₃ _ =>
        obeys_step (one_subset (h₃ (h₂ (h₁ hn)))) rfl rfl fun _ y₄ h₄ _ => ?_
      exact obeys_bind (ih fun v hv => h₄ (h₃ (h₂ (h₁ (hns hv))))) fun _ _ _ _ => obeys_unit _

theorem obeys_checkWorkerNodes (hd : Discipline w.T w.strict w.allowed) :
    Obeys w .checkWorkerNodes [] x checkWorkerNodes fun _ => [] :=
  obeys_bind (O := fun _ => []) (obeys_withLock (mayTake_nil rfl) fun _ _ =>
    obeys_step (List.nil_subset _) rfl rfl fun _ _ _ hns => obeys_checkNodes hns)
    fun events _ _ _ => obeys_handleFailure hd rfl events

/-! ## Scaling -/

theorem obeys_onWorker {α : Type} {p : Code α} {O : α → List Ref} (hn : .node n ∈ x)
    (hp : ∀ y, x ⊆ y → Obeys w o h y p O) : Obeys w o h x (onWorker n p) O := by
  refine obeys_step (one_subset hn) rfl rfl fun connected y hy _ => ?_
  cases connected with
  | true => exact hp y hy
  | false => exact obeys_halt

theorem obeys_precreateSnapshot (hc : .service c ∈ x) (hn : .node n ∈ x) :
    Obeys w (.precreateSnapshot c n) h x (precreateSnapshot c n) fun _ => [] := by
  refine obeys_step (one_subset hc) rfl rfl fun info y₁ h₁ _ => obeys_bind (obeys_onWorker (h₁ hn)
    fun y₂ h₂ => obeys_call (one_subset (h₂ (h₁ hn))) rfl rfl) fun resp y₂ h₂ _ => ?_
  cases resp with
  | none => exact obeys_unit _
  | some sandbox =>
    have hn₂ := h₂ (h₁ hn)
    exact obeys_bind (obeys_onWorker hn₂ fun _ h₃ => obeys_call (one_subset (h₃ hn₂)) rfl rfl)
      fun _ _ _ _ => obeys_unit _

theorem obeys_addEndpointToWNStruct (hni : o.takes false .niStorage = true)
    (hmap : ∀ n, o.takes true (.endpointMap n) = true) (name : String) (he : .endpoint e ∈ x)
    (service : String) : Obeys w o [] x (addEndpointToWNStruct name e service) fun _ => [] := by
  refine obeys_bind (obeys_withRLock (mayTake_nil hni) fun _ _ =>
    obeys_call (List.nil_subset _) rfl rfl) fun node y₁ h₁ hnode => ?_
  cases node with
  | none => exact obeys_halt
  | some m =>
    have hm : Ref.node m ∈ y₁ := hnode (List.mem_singleton_self _)
    refine obeys_withLock (mayTake_nil (hmap m)) fun y₂ h₂ =>
      (obeys_call ?_ rfl rfl).weaken fun _ =>
      List.nil_subset _
    simpa [Act.refs] using ⟨h₂ hm, h₂ (h₁ he)⟩

theorem obeys_applyPlacementPolicy :
    Obeys w (.createSandbox c) [] x applyPlacementPolicy fun node => node.toList.map .node := by
  refine obeys_withRLock (mayTake_nil rfl) fun _ _ => obeys_bind (obeys_withRLock
    ((mayTake_nil rfl).taking rfl) fun _ _ => obeys_call (List.nil_subset _) rfl rfl)
      fun count y _ _ => ?_
  split
  · exact obeys_ret (List.nil_subset _)
  · exact obeys_call (List.nil_subset _) rfl rfl

theorem obeys_addActualScale (hc : .service c ∈ x) (k : ℤ) :
    Obeys w (.createSandbox c) h x (call (.addActualScale c k)) fun _ => [] :=
  (obeys_call (one_subset hc) (by simp [Op.may, Op.addsTo]) rfl).weaken fun _ => List.nil_subset _

theorem obeys_createSandbox (hc : .service c ∈ x) :
    Obeys w (.createSandbox c) [] x (createSandbox c) fun _ => [] := by
  refine obeys_bind obeys_applyPlacementPolicy fun node y₁ h₁ hnode => ?_
  cases node with
  | none => exact obeys_addActualScale (h₁ hc) _
  | some n =>
    have hn : Ref.node n ∈ y₁ := hnode (List.mem_singleton_self _)
    refine obeys_step (one_subset (h₁ hc)) rfl rfl fun info y₂ h₂ _ => obeys_bind (obeys_onWorker
      (h₂ hn) fun _ h₃ => obeys_call (one_subset (h₃ (h₂ hn))) rfl rfl) fun resp y₃ h₃ _ => ?_
    have hc₃ := h₃ (h₂ (h₁ hc))
    have hn₃ := h₃ (h₂ hn)
    cases resp with
    | none => exact obeys_addActualScale hc₃ _
    | some sandbox =>
      -- the endpoint is made, entered in the node's map and in the list, and sent
      have hrest : ∀ y, y₃ ⊆ y → ∀ wn : NodeInfo, Obeys w (.createSandbox c) [] y (do
          let e : ℕ ← call (.newEndpoint (endpointOf sandbox.1 sandbox.2 n wn))
          addEndpointToWNStruct wn.nodeID e info.name
          let seen : List ℕ ← call (.getEndpoints c)
          call (.setEndpoints c seen e)
          let infos : List EndpointInfo ← call (.prepareEndpointInfo [e])
          updateEndpoints c infos) fun _ => [] := by
        intro y hy wn
        refine obeys_step (one_subset (hy hn₃)) rfl rfl fun e z₁ k₁ he => ?_
        have he₁ : Ref.endpoint e ∈ z₁ := he (List.mem_singleton_self _)
        have hc₁ := k₁ (hy hc₃)
        refine obeys_bind (obeys_addEndpointToWNStruct rfl (fun _ => rfl) _ he₁ _) fun _ z₂ k₂ _ =>
          obeys_step (one_subset (k₂ hc₁)) rfl rfl fun seen z₃ k₃ hseen =>
            obeys_step ?_ (by simp [Op.may, Op.addsTo]) rfl fun _ z₄ k₄ _ => ?_
        · exact List.cons_subset.2 ⟨k₃ (k₂ hc₁), List.cons_subset.2 ⟨k₃ (k₂ he₁), hseen⟩⟩
        · exact obeys_step (one_subset (k₄ (k₃ (k₂ he₁)))) rfl rfl fun _ z₅ k₅ _ =>
            obeys_updateEndpoints rfl _ (k₅ (k₄ (k₃ (k₂ hc₁)))) (mayTake_nil rfl)
      refine obeys_step (one_subset hn₃) rfl rfl fun wn y₄ h₄ _ =>
        obeys_skip rfl rfl rfl fun persist y₅ h₅ => ?_
      cases persist with
      | false => exact hrest y₅ (fun v hv => h₅ (h₄ hv)) wn
      | true =>
        exact obeys_step (one_subset (h₅ (h₄ hn₃))) rfl rfl fun _ y₆ h₆ _ =>
          hrest y₆ (fun v hv => h₆ (h₅ (h₄ hv))) wn

theorem obeys_drainAndDelete {es : List ℕ} (hc : .service c ∈ x) (hes : es.map Ref.endpoint ⊆ x) :
    Obeys w (.drainAndDelete c es) [] x (drainAndDelete c es) fun _ => [] := by
  have hdrain : Obeys w (.drainAndDelete c es) [] x (drainSandbox c es) fun _ => [] :=
    obeys_step (one_subset hc) rfl rfl fun _ y₁ h₁ _ =>
      obeys_step (fun v hv => h₁ (hes hv)) rfl rfl fun _ _ _ _ => obeys_bind
        (obeys_withLock (mayTake_nil rfl) fun _ _ => obeys_call (List.nil_subset _) rfl rfl)
          fun _ _ _ _ =>
          obeys_forM fun _ _ _ _ => obeys_skip rfl rfl rfl fun _ _ _ => obeys_unit _
  refine obeys_bind hdrain fun _ y hy _ => obeys_startAndWait (fun p hp => by cases hp)
    fun op hop => ?_
  obtain ⟨e, he, rfl⟩ := List.mem_map.1 hop
  exact ⟨rfl, one_subset (hy (hes (List.mem_map_of_mem he)))⟩

theorem obeys_deleteVictim (hd : Discipline w.T w.strict w.allowed) (he : .endpoint e ∈ x) :
    Obeys w (.deleteVictim e) [] x (deleteVictim e) fun _ => [] := by
  have hdelete : Obeys w (.deleteVictim e) [] x (deleteSandbox e) fun _ => [] := by
    refine obeys_step (one_subset he) rfl rfl fun key y₁ _ hnode => ?_
    cases hn : key.node with
    | none => exact obeys_unit _
    | some n =>
      have hn₁ : Ref.node n ∈ y₁ := hnode (by simp [Act.gives, hn])
      exact obeys_bind (obeys_onWorker hn₁ fun _ h₂ => obeys_call (one_subset (h₂ hn₁)) rfl rfl)
        fun _ _ _ _ => obeys_unit _
  exact obeys_bind hdelete fun _ y hy _ => ⟨knows_removeEndpointFromWNStruct (hy he),
    keeps_removeEndpointFromWNStruct hd e fun _ => (mayTake_nil rfl)⟩

theorem obeys_doDownscaling (ho : o.isLoopOf c = true) (hc : .service c ∈ x)
    (hl : w.T (.endpointLock c) = true → (.endpointLock c, true) ∈ h)
    (actualScale desiredCount : ℤ) :
    Obeys w o h x (doDownscaling c actualScale desiredCount) fun _ => [] := by
  refine obeys_locked (one_subset hc) ho rfl hl fun toEvict y hy hes => obeys_start fun op hop => ?_
  obtain rfl := List.mem_singleton.1 hop
  exact ⟨ho, List.cons_subset.2 ⟨hy hc, hes⟩⟩

theorem obeys_scale (hc : .service c ∈ x) (ho : o.isLoopOf c = true)
    (hjump : o.mayJump (.scalingControllerLoop c) = true) (desiredCount : ℤ)
    (isLoopRunning : Bool) :
    Obeys w o [] x (scale c desiredCount isLoopRunning) fun _ => [] := by
  have htakes : o.takes true (.endpointLock c) = true := by
    cases o <;> first | rfl | cases ho
  refine obeys_step (one_subset hc) ho rfl fun actualScale y₁ h₁ _ => ?_
  cases isLoopRunning with
  | false =>
    exact obeys_withLock (mayTake_nil htakes) fun _ h₂ =>
      obeys_doDownscaling ho (h₂ (h₁ hc)) mem_taking_self _ _
  | true =>
    refine obeys_bind (O := fun _ => []) (obeys_withLock (mayTake_nil htakes) fun y₂ h₂ => ?_)
      fun _ y₂ h₂ _ => obeys_jump hjump (one_subset (h₂ (h₁ hc)))
    split
    · refine obeys_startAndWait (fun p hp => ?_) fun op hop => ?_
      · rcases mem_taking hp with rfl | hp
        · exact ho
        · cases hp
      · obtain rfl := List.eq_of_mem_replicate hop
        exact ⟨ho, one_subset (h₂ (h₁ hc))⟩
    · refine obeys_step (one_subset (h₂ (h₁ hc))) ho rfl fun disabled y₃ h₃ _ => ?_
      split
      · exact obeys_doDownscaling ho (h₃ (h₂ (h₁ hc))) mem_taking_self _ _
      · exact obeys_unit _

theorem obeys_takeLastValue (hc : .service c ∈ x) (desiredCount : ℤ) (isLoopRunning : Bool) :
    Obeys w (.takeLastValue c desiredCount isLoopRunning) [] x
      (takeLastValue c desiredCount isLoopRunning) fun _ => [] := by
  refine obeys_step (one_subset hc) (by simp [Op.may, Op.isLoopOf]) rfl fun value y hy _ => ?_
  cases value with
  | none => exact obeys_scale (hy hc) (by simp [Op.isLoopOf]) (by simp [Op.mayJump]) _ _
  | some v => exact obeys_jump (by simp [Op.mayJump]) (one_subset (hy hc))

theorem obeys_scalingControllerLoop (hc : .service c ∈ x) :
    Obeys w (.scalingControllerLoop c) [] x (scalingControllerLoop c) fun _ => [] :=
  obeys_step (one_subset hc) (by simp [Op.may, Op.isLoopOf]) rfl fun _ _ hy _ =>
    obeys_jump (by simp [Op.mayJump]) (one_subset (hy hc))

/-! ## The autoscaler -/

theorem obeys_startAutoscaling (ho : o.startsAutoscaler = true) (hc : .service c ∈ x) :
    Obeys w o h x (startAutoscaling c) fun _ => [] := by
  refine obeys_step (one_subset hc) ho rfl fun swapped y₁ h₁ _ => ?_
  cases swapped with
  | false => exact obeys_unit _
  | true =>
    refine obeys_step (one_subset (h₁ hc)) ho rfl fun _ y₂ h₂ _ => obeys_start fun op hop => ?_
    obtain rfl := List.mem_singleton.1 hop
    exact ⟨ho, one_subset (h₂ (h₁ hc))⟩

theorem obeys_stopAutoscaling (hc : .service c ∈ x) :
    Obeys w o h x (stopAutoscaling c) fun _ => [] := by
  refine obeys_step (one_subset hc) rfl rfl fun running y₁ h₁ _ => ?_
  cases running with
  | false => exact obeys_unit _
  | true =>
    refine obeys_step (one_subset (h₁ hc)) rfl rfl fun sent _ _ _ => ?_
    cases sent with
    | true => exact obeys_unit _
    | false => exact obeys_halt

theorem obeys_stopAutoscalingLoop (ho : o.isAutoscalerOf c = true) (hc : .service c ∈ x) :
    Obeys w o h x (stopAutoscalingLoop c) fun _ => [] := by
  refine obeys_step (one_subset hc) ho rfl fun _ y₁ h₁ _ =>
    obeys_step (one_subset (h₁ hc)) ho rfl fun closed y₂ h₂ _ => ?_
  cases closed with
  | true =>
    have hdrop : Obeys w o h y₂ (call (.dropStopCh c)) fun _ => [] :=
      obeys_call (one_subset (h₂ (h₁ hc))) ho rfl
    exact hdrop
  | false => exact obeys_halt

theorem obeys_scalingCycle (ho : o.isAutoscalerOf c = true) (hc : .service c ∈ x)
    (isScaleFromZero : Bool) : Obeys w o h x (scalingCycle c isScaleFromZero) fun _ => [] := by
  refine obeys_step (one_subset hc) ho rfl fun desired y₁ h₁ _ =>
    obeys_step (one_subset (h₁ hc)) ho rfl fun offered y₂ h₂ _ => ?_
  cases offered with
  | false => exact obeys_halt
  | true =>
    refine obeys_step (one_subset (h₂ (h₁ hc))) ho rfl fun taken y₃ h₃ _ => ?_
    cases taken with
    | false => exact obeys_halt
    | true =>
      simp only [if_true]
      split
      · exact obeys_bind (obeys_stopAutoscalingLoop ho (h₃ (h₂ (h₁ hc)))) fun _ _ _ _ =>
          obeys_unit _
      · exact obeys_unit _

theorem obeys_scalingLoop (hc : .service c ∈ x) :
    Obeys w (.scalingLoop c) [] x (scalingLoop c) fun _ => [] := by
  refine obeys_bind (obeys_scalingCycle (by simp [Op.isAutoscalerOf]) hc true)
    fun toStop y hy _ => ?_
  cases toStop with
  | true => exact obeys_unit _
  | false => exact obeys_jump (by simp [Op.mayJump]) (one_subset (hy hc))

theorem obeys_scalingLoopRound (hc : .service c ∈ x) :
    Obeys w (.scalingLoopRound c) [] x (scalingLoopRound c) fun _ => [] := by
  have ho : (Op.scalingLoopRound c).isAutoscalerOf c = true := by simp [Op.isAutoscalerOf]
  refine obeys_step (one_subset hc) ho rfl fun tick y₁ h₁ _ => ?_
  cases tick with
  | false => exact obeys_stopAutoscalingLoop ho (h₁ hc)
  | true =>
    refine obeys_bind (obeys_scalingCycle ho (h₁ hc) false) fun toStop y₂ h₂ _ => ?_
    cases toStop with
    | true => exact obeys_unit _
    | false => exact obeys_jump (by simp [Op.mayJump]) (one_subset (h₂ (h₁ hc)))

theorem obeys_onMetricsReceive (name : String) :
    Obeys w (.onMetricsReceive name) [] x (onMetricsReceive name) fun _ => [] := by
  refine obeys_bind (obeys_withRLock (mayTake_nil rfl) fun _ _ =>
    obeys_callLocked (List.nil_subset _) rfl rfl mem_taking_self) fun storage y _ hc => ?_
  cases storage with
  | none => exact obeys_unit _
  | some c =>
    exact obeys_bind (obeys_startAutoscaling rfl (hc (List.mem_singleton_self _))) fun _ _ _ _ =>
      obeys_unit _

theorem obeys_cleanControlPlaneInMemoryData :
    Obeys w .cleanControlPlaneInMemoryData [] x cleanControlPlaneInMemoryData fun _ => [] := by
  refine obeys_bind (O := fun _ => []) (obeys_withLock (mayTake_nil rfl) fun _ _ => obeys_locked
    (List.nil_subset _) rfl rfl mem_taking_self fun cs y₁ _ hcs => obeys_forM fun c hc y₂ h₂ => ?_)
    fun _ _ _ _ => (obeys_call (List.nil_subset _) rfl rfl).weaken fun _ => List.nil_subset _
  exact obeys_stopAutoscaling (h₂ (hcs (List.mem_map_of_mem hc)))

/-! ## Reconstruction -/

theorem keeps_reconstructService (info : ServiceInfo) :
    Keeps T (lockRules T strict) allowed (.reconstructService info) []
      (reconstructService info) := by
  refine keeps_locked (mayTake_nil rfl) (follows_bind.2 (Follows.mono
    (follows_notifyDataplanesAndStartScalingLoop rfl ((mayTake_nil rfl).taking rfl)
      mem_taking_self info true) ?_))
  rintro err _ ⟨-, rfl⟩
  exact rfl

theorem obeys_listAllEndpoints (hns : ns.map Ref.node ⊆ x) :
    Obeys w o h x (listAllEndpoints ns) fun _ => [] := by
  induction ns generalizing x with
  | nil => exact obeys_unit _
  | cons n ns ih =>
    obtain ⟨hn, hns⟩ := List.cons_subset.1 hns
    refine obeys_step (one_subset hn) rfl rfl fun list y hy _ => ?_
    cases list with
    | none => exact obeys_halt
    | some es => exact obeys_bind (ih fun v hv => hy (hns hv)) fun _ _ _ _ => obeys_unit _

theorem obeys_reconstructEndpoint (endpoint : EndpointRecord) :
    Obeys w (.reconstructEndpoint endpoint) [] x (reconstructEndpoint endpoint) fun _ => [] := by
  refine obeys_bind (obeys_withRLock (mayTake_nil rfl) fun _ _ =>
    obeys_call (List.nil_subset _) rfl rfl) fun node y₁ _ hnode => ?_
  cases node with
  | none => exact obeys_unit _
  | some n =>
    have hn : Ref.node n ∈ y₁ := hnode (List.mem_singleton_self _)
    refine obeys_step (one_subset hn) rfl rfl fun wn y₂ h₂ _ =>
      obeys_step (one_subset (h₂ hn)) rfl rfl fun e y₃ _ hnew => ?_
    have he : Ref.endpoint e ∈ y₃ := hnew (List.mem_singleton_self _)
    refine obeys_bind (obeys_withRLock (mayTake_nil rfl) fun _ _ =>
      obeys_callLocked (List.nil_subset _) rfl rfl mem_taking_self) fun ss y₄ h₄ hss => ?_
    cases ss with
    | none => exact obeys_unit _
    | some c =>
      have hc : Ref.service c ∈ y₄ := hss (List.mem_singleton_self _)
      refine obeys_step (one_subset hc) rfl rfl fun info y₅ h₅ _ =>
        obeys_bind (obeys_addEndpointToWNStruct rfl (fun _ => rfl) _ (h₅ (h₄ he)) _)
          fun _ y₆ h₆ _ => ?_
      have hc₆ := h₆ (h₅ hc)
      have he₆ := h₆ (h₅ (h₄ he))
      refine obeys_bind (O := fun _ => []) (obeys_withLock (mayTake_nil rfl) fun y₇ h₇ =>
        obeys_step (one_subset (h₇ hc₆)) rfl rfl fun seen y₈ h₈ hseen =>
          obeys_locked ?_ rfl rfl mem_taking_self fun _ y₉ h₉ _ => ?_) fun infos y₇ h₇ _ => ?_
      · exact List.cons_subset.2 ⟨h₈ (h₇ hc₆), List.cons_subset.2 ⟨h₈ (h₇ he₆), hseen⟩⟩
      · exact obeys_step (one_subset (h₉ (h₈ (h₇ hc₆)))) rfl rfl fun es _ _ hes =>
          (obeys_call hes rfl rfl).weaken fun _ => List.nil_subset _
      · exact obeys_bind (obeys_updateEndpoints rfl _ (h₇ hc₆) (mayTake_nil rfl)) fun _ y₈ h₈ _ =>
          obeys_step (one_subset (h₈ (h₇ hc₆))) rfl rfl fun _ y₉ h₉ _ =>
            obeys_startAutoscaling rfl (h₉ (h₈ (h₇ hc₆)))

theorem obeys_reconstructEndpointsState (ho : ∀ e, o.mayStart (.reconstructEndpoint e) = true) :
    Obeys w o h x reconstructEndpointsState fun _ => [] := by
  refine obeys_step (List.nil_subset _) rfl rfl fun ns y _ hns =>
    obeys_bind (obeys_listAllEndpoints hns) fun es _ _ _ => obeys_start fun op hop => ?_
  obtain ⟨e, -, rfl⟩ := List.mem_map.1 hop
  exact ⟨ho e, List.nil_subset _⟩

theorem obeys_reconstructState :
    Obeys w .reconstructState [] x reconstructState fun _ => [] := by
  refine obeys_skip rfl rfl rfl fun dataPlanes _ _ => ?_
  cases dataPlanes with
  | none => exact obeys_unit _
  | some dataPlanes =>
    refine obeys_bind (O := fun _ => []) (obeys_forM fun _ _ _ _ => obeys_skip rfl rfl rfl
      fun _ _ _ => (obeys_call (List.nil_subset _) rfl rfl).weaken fun _ => List.nil_subset _)
      fun _ _ _ _ => obeys_skip rfl rfl rfl fun workers _ _ => ?_
    cases workers with
    | none => exact obeys_unit _
    | some workers =>
      refine obeys_bind (O := fun _ => []) (obeys_forM fun info _ _ _ =>
        obeys_step (List.nil_subset _) rfl rfl fun wn y _ hwn => obeys_start fun op hop => ?_)
        fun _ _ _ _ => obeys_skip rfl rfl rfl fun services _ _ => ?_
      · obtain rfl := List.mem_singleton.1 hop
        exact ⟨rfl, hwn⟩
      · cases services with
        | none => exact obeys_unit _
        | some services =>
          refine obeys_bind (obeys_startAndWait (fun p hp => by cases hp) fun op hop => ?_)
            fun _ _ _ _ => obeys_bind (obeys_reconstructEndpointsState fun _ => rfl) fun _ _ _ _ =>
              obeys_skip rfl rfl rfl fun leader _ _ => ?_
          · obtain ⟨info, -, rfl⟩ := List.mem_map.1 hop
            exact ⟨rfl, List.nil_subset _⟩
          · cases leader <;> exact obeys_unit _

/-- **Every operation uses only what it knows and keeps to the table of locks.** -/
theorem obeys_body (hd : Discipline w.T w.strict w.allowed) (op : Op) :
    Obeys w op [] op.refs (body op) fun _ => [] := by
  have hignore : ∀ {α : Type} {p : Code α}, Obeys w op [] op.refs p (fun _ => []) →
      Obeys w op [] op.refs (p >>= fun _ => pure ()) fun _ => [] :=
    fun hp => obeys_bind hp fun _ _ _ _ => obeys_unit _
  have hone : ∀ {v : Ref}, v ∈ [v] := List.mem_singleton_self _
  cases op with
  | registerDataplane info => exact hignore (obeys_registerDataplane info)
  | deregisterDataplane info => exact hignore (obeys_deregisterDataplane info)
  | registerNode info => exact hignore ⟨knows_registerNode info, keeps_registerNode hd info⟩
  | deregisterNode nodeID => exact hignore (obeys_deregisterNode nodeID)
  | nodeHeartbeat nodeID => exact hignore (obeys_nodeHeartbeat nodeID)
  | registerService info =>
    exact hignore ⟨knows_registerService info, keeps_registerService hd info⟩
  | deregisterService name => exact hignore (obeys_deregisterService hd name)
  | handleFailure failures => exact obeys_handleFailure hd rfl failures
  | checkWorkerNodes => exact obeys_checkWorkerNodes hd
  | onMetricsReceive name => exact hignore (obeys_onMetricsReceive name)
  | reconstructState => exact hignore obeys_reconstructState
  | cleanControlPlaneInMemoryData => exact obeys_cleanControlPlaneInMemoryData
  | connectToWorker n => exact obeys_step (one_subset hone) rfl rfl fun _ _ _ _ => obeys_unit _
  | precreateSnapshot c n => exact obeys_precreateSnapshot (by simp [Op.refs]) (by simp [Op.refs])
  | scalingControllerLoop c => exact obeys_scalingControllerLoop hone
  | scalingLoop c => exact obeys_scalingLoop hone
  | scalingLoopRound c => exact obeys_scalingLoopRound hone
  | takeLastValue c desired isLoopRunning => exact obeys_takeLastValue hone desired isLoopRunning
  | createSandbox c => exact obeys_createSandbox hone
  | drainAndDelete c es => exact obeys_drainAndDelete List.mem_cons_self (List.subset_cons_self _ _)
  | deleteVictim e => exact obeys_deleteVictim hd hone
  | reconstructWorker n =>
    refine obeys_step (one_subset hone) rfl rfl fun connected y hy _ => ?_
    cases connected with
    | false => exact obeys_unit _
    | true =>
      exact obeys_withLock (mayTake_nil rfl) fun _ hz =>
        (obeys_callLocked (one_subset (hz (hy hone))) rfl
        rfl mem_taking_self).weaken fun _ => List.nil_subset _
  | reconstructService info =>
    refine ⟨knows_withLock fun _ _ => ?_, keeps_reconstructService info⟩
    exact knows_bind (knows_notifyDataplanesAndStartScalingLoop rfl info true) fun _ _ _ _ =>
      knows_unit _
  | reconstructEndpointsState => exact obeys_reconstructEndpointsState fun _ => rfl
  | reconstructEndpoint e => exact obeys_reconstructEndpoint e

theorem knows_body (op : Op) : known.Follows anyAnswer (body op) (fun _ => known.ended)
    (known.start op) := by
  -- with no lock of interest, every answer is allowed
  have hd : Discipline (fun _ => false) false anyAnswer :=
    ⟨nofun, .inl fun _ => rfl, nofun, nofun, nofun⟩
  exact Follows.mono (obeys_body (w := ⟨_, _, _⟩) hd op).knows fun _ _ _ => trivial

theorem follows_locks (hd : Discipline T strict allowed) (op : Op) :
    (locks T (lockRules T strict)).Follows allowed (body op)
      (fun _ => (locks T (lockRules T strict)).ended) ((locks T (lockRules T strict)).start op) :=
  Follows.mono (obeys_body (w := ⟨T, strict, allowed⟩) hd op).keeps fun _ y hy => by rw [hy]; rfl

end Dirigent.ControlPlane
