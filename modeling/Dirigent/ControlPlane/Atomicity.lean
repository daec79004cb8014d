import Dirigent.ControlPlane.LockDiscipline
import Dirigent.ControlPlane.Persistence

/-!
# Registrations that fail

A registration changes the store, a map in memory and the data planes one after another. If it
fails on the way and answers so, the records of the store and the three maps should be what they
were. A call to the store may fail after it has taken effect: the persistence layer writes, and
returns the error of the wait for a quorum. Nothing takes such a write back. Run alone,

* `RegisterDataplane` leaves the stored data plane if the store answers an error after the write, if
  it cannot connect to the data plane, or cannot add a deployment;
* `DeregisterDataplane` and `DeregisterNode` leave the record deleted from the store, but the data
  plane or the node registered, if the store answers an error after the deletion;
* `DeregisterService` does so too, and also if a data plane fails;
* `RegisterNode` and `RegisterService` are blocked by their own lock after a failed store
  (`solo_registerNode_of_failed`), and so answer a failure only before the first change.

`registration_atomic_iff` says that there are no other cases.
-/

namespace Dirigent.ControlPlane

open DataPlane (EndpointInfo)
open Prog

variable {env : Act → Choice} {s s' : State} {m : Lock → RWMutex}

inductive Registration
  | registerDataplane (info : DataplaneInfo)
  | deregisterDataplane (info : DataplaneInfo)
  | registerNode (info : NodeInfo)
  | deregisterNode (nodeID : String)
  | registerService (info : ServiceInfo)
  | deregisterService (name : String)

/-- The operation with its answer. -/
def answer : Registration → Code Reply
  | .registerDataplane info => do
    let r ← registerDataplane info
    pure r.1
  | .deregisterDataplane info => deregisterDataplane info
  | .registerNode info => registerNode info
  | .deregisterNode nodeID => deregisterNode nodeID
  | .registerService info => registerService info
  | .deregisterService name => deregisterService name

/-- The same persisted records and the same entries of the three maps. -/
structure SameRecords (s s' : State) : Prop where
  storedDataPlanes : ∀ k, s'.storedDataPlanes.lookup k = s.storedDataPlanes.lookup k
  storedWorkers : ∀ k, s'.storedWorkers.lookup k = s.storedWorkers.lookup k
  storedServices : ∀ k, s'.storedServices.lookup k = s.storedServices.lookup k
  dataPlaneConnections : ∀ k, s'.dataPlaneConnections.lookup k = s.dataPlaneConnections.lookup k
  niStorage : ∀ k, s'.niStorage.lookup k = s.niStorage.lookup k
  siStorage : ∀ k, s'.siStorage.lookup k = s.siStorage.lookup k

theorem SameRecords.refl (s : State) : SameRecords s s :=
  ⟨fun _ => rfl, fun _ => rfl, fun _ => rfl, fun _ => rfl, fun _ => rfl, fun _ => rfl⟩

/-- If the operation, run alone, answers that it failed, nothing has changed. -/
def Atomic (env : Act → Choice) (s : State) (r : Registration) : Prop :=
  ∀ reply s' m', (answer r).solo exec env s noLocks = .ok (reply, s', m') → reply.success = false →
    SameRecords s s'

/-- Where a failed operation leaves a change, in terms of the state it starts in and the outcomes of
its calls. -/
def AtomicityFault (env : Act → Choice) (s : State) : Registration → Prop
  | .registerDataplane info => s.dataPlaneConnections.lookup info.ip = none ∧
      (env (.storeDataPlaneInformation info)).takesEffect = true ∧
      s.storedDataPlanes.lookup info.ip ≠ some info ∧
      ((env (.storeDataPlaneInformation info)).succeeds = false ∨
        (env (.initializeDataPlaneConnection info)).succeeds = false ∨
        ∃ c ∈ s.siStorage.entries.map Sigma.snd,
          (env (.addDeployment info.ip (s.services c).info.name)).succeeds = false)
  | .deregisterDataplane info => (s.dataPlaneConnections.lookup info.ip).isSome = true ∧
      (env (.deleteDataPlaneInformation info.ip)).takesEffect = true ∧
      s.storedDataPlanes.lookup info.ip ≠ none ∧
      (env (.deleteDataPlaneInformation info.ip)).succeeds = false
  | .deregisterNode nodeID => (s.niStorage.lookup nodeID).isSome = true ∧
      (env (.deleteWorkerNodeInformation nodeID)).takesEffect = true ∧
      s.storedWorkers.lookup nodeID ≠ none ∧
      (env (.deleteWorkerNodeInformation nodeID)).succeeds = false
  | .deregisterService name => (s.siStorage.lookup name).isSome = true ∧
      (env (.deleteServiceInformation name)).takesEffect = true ∧
      s.storedServices.lookup name ≠ none ∧
      ((env (.deleteServiceInformation name)).succeeds = false ∨
        ∃ ip ∈ s.dataPlaneConnections.keys, (env (.deleteDeployment ip name)).succeeds = false)
  | .registerNode _ | .registerService _ => False

/-- What a failed operation must meet. -/
def FailsClean (s : State) (reply : Reply) (s' : State) : Prop :=
  reply.success = false → SameRecords s s'

theorem failsClean_of_success {reply : Reply} (h : reply.success = true) :
    FailsClean s reply s' := fun hno => by simp [h] at hno

theorem failsClean_refl (reply : Reply) : FailsClean s reply s := fun _ => .refl s

theorem atomic_iff_of_solo {r : Registration} {reply : Reply} {m' : Lock → RWMutex}
    (h : (answer r).solo exec env s noLocks = .ok (reply, s', m')) :
    Atomic env s r ↔ FailsClean s reply s' := by
  refine ⟨fun ha => ha reply s' m' h, fun hc reply' s'' m'' hok => ?_⟩
  rw [h] at hok
  cases hok
  exact hc

theorem atomic_of_ensures {r : Registration} (h : Ensures exec env (answer r) s (FailsClean s)) :
    Atomic env s r := fun reply s' m' hok => h noLocks reply s' m' hok

theorem atomic_of_error {r : Registration} {e : Prog.Stop Lock}
    (h : (answer r).solo exec env s noLocks = .error e) : Atomic env s r := by
  intro reply s' m' hok
  rw [h] at hok
  cases hok

theorem lookup_insert_eq_iff {β : Type} {m : AList fun _ : String => β} {a : String} {b : β} :
    (∀ k, (m.insert a b).lookup k = m.lookup k) ↔ m.lookup a = some b := by
  refine ⟨fun h => ?_, fun h k => ?_⟩
  · rw [← h a, AList.lookup_insert]
  · rw [lookup_insert_ite]
    split_ifs with hk
    · rw [← hk, h]
    · rfl

theorem lookup_erase_eq_iff {β : Type} {m : AList fun _ : String => β} {a : String} :
    (∀ k, (m.erase a).lookup k = m.lookup k) ↔ m.lookup a = none := by
  refine ⟨fun h => ?_, fun h k => ?_⟩
  · rw [← h a, AList.lookup_erase]
  · rw [lookup_erase_ite]
    split_ifs with hk
    · rw [← hk, h]
    · rfl

/-- A failure after a write that may have taken effect: it is clean unless it did, and made a
difference. -/
theorem failsClean_ite_iff {effect : Bool} {P : Prop} {s₁ : State} {reply : Reply}
    (hreply : reply.success = false) (h : SameRecords s s₁ ↔ P) :
    FailsClean s reply (if effect then s₁ else s) ↔ ¬ (effect = true ∧ ¬ P) := by
  cases effect with
  | true => simpa [FailsClean, hreply] using h
  | false => exact iff_of_true (failsClean_refl _) (by simp)

/-! ## Deregistrations of data planes and nodes -/

theorem ensures_success {α : Type} {p : Code α} {f : α → Code Reply}
    (h : ∀ x s', Ensures exec env (f x) s' fun reply _ => reply.success = true) {s₀ : State} :
    Ensures exec env (p >>= f) s fun reply s' => FailsClean s₀ reply s' := by
  refine ensures_bind fun m x s' m' _ => ?_
  exact (h x s').mono fun reply _ hs => failsClean_of_success hs

theorem deregisterDataplane_atomic (info : DataplaneInfo) :
    Atomic env s (.deregisterDataplane info) ↔
      ¬ AtomicityFault env s (.deregisterDataplane info) := by
  cases hdp : s.dataPlaneConnections.lookup info.ip with
  | none =>
    refine iff_of_true ?_ fun h => by simp [AtomicityFault, hdp] at h
    refine atomic_of_ensures (ensures_withLock
      (ensures_withLock (ensures_bind (ensures_perform ?_))))
    rintro present _ ⟨⟩
    rw [hdp]
    exact ensures_ret (failsClean_refl _)
  | some dp =>
    cases hdel : (env (.deleteDataPlaneInformation info.ip)).succeeds with
    | true =>
      refine iff_of_true ?_ fun h => by simp [AtomicityFault, hdel] at h
      refine atomic_of_ensures
        (ensures_withLock (ensures_withLock (ensures_bind (ensures_perform ?_))))
      rintro present _ ⟨⟩
      rw [hdp]
      refine ensures_bind (ensures_perform ?_)
      rintro deleted s₁ ⟨⟩
      rw [hdel]
      exact ensures_success fun _ _ => ensures_ret rfl
    | false =>
      have hsolo : (answer (.deregisterDataplane info)).solo exec env s noLocks =
          .ok ({ success := false, err := some .persistence },
            if (env (.deleteDataPlaneInformation info.ip)).takesEffect then
              { s with storedDataPlanes := s.storedDataPlanes.erase info.ip } else s, noLocks) := by
        refine solo_withLock_of_ok rfl (solo_withLock_of_ok rfl ?_)
        rw [solo_bind_of_ok (solo_perform rfl), hdp]
        refine (solo_bind_of_ok (solo_perform rfl)).trans ?_
        rw [hdel]
        rfl
      have hsame : SameRecords s { s with storedDataPlanes := s.storedDataPlanes.erase info.ip } ↔
          s.storedDataPlanes.lookup info.ip = none :=
        ⟨fun h => lookup_erase_eq_iff.1 h.storedDataPlanes, fun h => ⟨lookup_erase_eq_iff.2 h,
          fun _ => rfl, fun _ => rfl, fun _ => rfl, fun _ => rfl, fun _ => rfl⟩⟩
      rw [atomic_iff_of_solo hsolo, failsClean_ite_iff rfl hsame]
      simp [AtomicityFault, hdp, hdel]

theorem deregisterNode_atomic (nodeID : String) :
    Atomic env s (.deregisterNode nodeID) ↔ ¬ AtomicityFault env s (.deregisterNode nodeID) := by
  cases hn : s.niStorage.lookup nodeID with
  | none =>
    refine iff_of_true ?_ fun h => by simp [AtomicityFault, hn] at h
    refine atomic_of_ensures (ensures_withLock (ensures_bind (ensures_perform ?_)))
    rintro node _ ⟨⟩
    rw [hn]
    exact ensures_ret (failsClean_refl _)
  | some n =>
    cases hdel : (env (.deleteWorkerNodeInformation nodeID)).succeeds with
    | true =>
      refine iff_of_true ?_ fun h => by simp [AtomicityFault, hdel] at h
      refine atomic_of_ensures (ensures_withLock (ensures_bind (ensures_perform ?_)))
      rintro node _ ⟨⟩
      rw [hn]
      refine ensures_bind (ensures_perform ?_)
      rintro deleted s₁ ⟨⟩
      rw [hdel]
      exact ensures_success fun _ _ => ensures_bind (ensures_perform fun _ _ _ => ensures_ret rfl)
    | false =>
      have hsolo : (answer (.deregisterNode nodeID)).solo exec env s noLocks =
          .ok ({ success := false, err := some .persistence },
            if (env (.deleteWorkerNodeInformation nodeID)).takesEffect then
              { s with storedWorkers := s.storedWorkers.erase nodeID } else s, noLocks) := by
        refine solo_withLock_of_ok rfl ?_
        rw [solo_bind_of_ok (solo_perform rfl), hn]
        refine (solo_bind_of_ok (solo_perform rfl)).trans ?_
        rw [hdel]
        rfl
      have hsame : SameRecords s { s with storedWorkers := s.storedWorkers.erase nodeID } ↔
          s.storedWorkers.lookup nodeID = none :=
        ⟨fun h => lookup_erase_eq_iff.1 h.storedWorkers, fun h => ⟨fun _ => rfl,
          lookup_erase_eq_iff.2 h, fun _ => rfl, fun _ => rfl, fun _ => rfl, fun _ => rfl⟩⟩
      rw [atomic_iff_of_solo hsolo, failsClean_ite_iff rfl hsame]
      simp [AtomicityFault, hn, hdel]

/-! ## Registrations that their own lock blocks -/

theorem registerNode_atomic (info : NodeInfo) : Atomic env s (.registerNode info) := by
  by_cases hfails : s.niStorage.lookup info.nodeID = none ∧
      (env (.storeWorkerNodeInformation info)).succeeds = false
  · exact atomic_of_error (solo_registerNode_of_failed hfails.1 hfails.2)
  refine atomic_of_ensures (ensures_bind (ensures_perform ?_))
  rintro wn _ ⟨⟩
  refine ensures_withLock (ensures_bind (ensures_perform ?_))
  rintro node _ ⟨⟩
  split
  · exact ensures_ret fun _ =>
      ⟨fun _ => rfl, fun _ => rfl, fun _ => rfl, fun _ => rfl, fun _ => rfl, fun _ => rfl⟩
  · next habsent =>
    refine ensures_bind (ensures_perform ?_)
    rintro stored s₁ ⟨⟩
    have hstored : (env (.storeWorkerNodeInformation info)).succeeds = true := by
      by_contra hno
      exact hfails ⟨by simpa using habsent, by simpa using hno⟩
    rw [hstored]
    exact ensures_success fun _ _ => ensures_bind (ensures_start _ (ensures_bind
      (ensures_perform fun _ _ _ => ensures_ret rfl)))

theorem ensures_notifyDataplanesAndStartScalingLoop (info : ServiceInfo) (r : Bool) (s : State) :
    Ensures exec env (notifyDataplanesAndStartScalingLoop info r) s fun err _ => err = none := by
  refine ensures_bind fun _ _ _ _ _ => ensures_bind (ensures_perform fun _ _ _ => ?_)
  refine ensures_bind (ensures_perform fun c _ _ => ?_)
  cases c with
  | none => exact ensures_halt
  | some c => exact ensures_bind (ensures_start _ (ensures_ret rfl))

theorem registerService_atomic (info : ServiceInfo) : Atomic env s (.registerService info) := by
  by_cases hfails : s.siStorage.lookup info.name = none ∧
      (env (.storeServiceInformation info)).succeeds = false
  · exact atomic_of_error (solo_registerService_of_failed hfails.1 hfails.2)
  refine atomic_of_ensures (ensures_withLock (ensures_bind (ensures_perform ?_)))
  rintro service _ ⟨⟩
  split
  · exact ensures_ret (failsClean_refl _)
  · next habsent =>
    refine ensures_bind (ensures_perform ?_)
    rintro stored s₁ ⟨⟩
    have hstored : (env (.storeServiceInformation info)).succeeds = true := by
      by_contra hno
      exact hfails ⟨by simpa using habsent, by simpa using hno⟩
    rw [hstored]
    refine ensures_bind ((ensures_notifyDataplanesAndStartScalingLoop info false _).mono ?_)
    rintro _ s₂ rfl
    -- from here on the answer is success
    refine ensures_success fun precreate s₃ => ?_
    cases precreate with
    | true => exact ensures_bind fun _ _ _ _ _ => ensures_ret rfl
    | false => exact ensures_ret rfl

/-! ## `RegisterDataplane` -/

theorem solo_singlethreadUpdateEndpoints (env : Act → Choice) (m : Lock → RWMutex) (c : ℕ)
    (es : List EndpointInfo) (s : State) :
    ∃ d, (singlethreadUpdateEndpoints c es).solo exec env s m =
      .ok ((), { s with deployments := d }, m) := by
  rw [singlethreadUpdateEndpoints, solo_bind_of_ok (solo_perform rfl),
    solo_bind_of_ok (solo_perform rfl)]
  suffices hloop : ∀ (ips : List String) (s : State), ∃ d,
      (forM ips fun ip => do
        let _ ← call (.updateEndpointList ip (s.services c).info.name es) : Code Unit).solo
          exec env s m = .ok ((), { s with deployments := d }, m) from hloop _ s
  intro ips
  induction ips with
  | nil => exact fun s => ⟨s.deployments, rfl⟩
  | cons ip ips ih =>
    intro s
    rw [List.forM_cons]
    have hcall : ∃ r d, exec (.updateEndpointList ip (s.services c).info.name es) s
        (env (.updateEndpointList ip (s.services c).info.name es)) =
          some (r, { s with deployments := d }) := by
      simp only [exec]
      split
      · exact ⟨_, _, rfl⟩
      · split_ifs
        · exact ⟨_, _, rfl⟩
        · exact ⟨_, _, rfl⟩
    obtain ⟨r, d, hd⟩ := hcall
    rw [solo_bind_of_ok (solo_bind_of_ok (solo_perform hd))]
    exact ih { s with deployments := d }

/-- The services are told about one after another until a call fails; then the data plane goes. -/
theorem solo_addDeployments (env : Act → Choice) (m : Lock → RWMutex) (ip : String) (cs : List ℕ)
    (s : State) :
    ∃ d, (addDeployments ip cs).solo exec env s m =
      if ∃ c ∈ cs, (env (.addDeployment ip (s.services c).info.name)).succeeds = false then
        .ok ({ success := false, err := some .dataPlane },
          { s with
            deployments := d
            dataPlaneConnections := s.dataPlaneConnections.erase ip }, m)
      else .ok ({ success := true }, { s with deployments := d }, m) := by
  induction cs generalizing s with
  | nil => exact ⟨s.deployments, by simp [addDeployments]⟩
  | cons c cs ih =>
    rw [addDeployments, solo_bind_of_ok (solo_perform rfl), solo_bind_of_ok (solo_perform rfl)]
    cases hc : (env (.addDeployment ip (s.services c).info.name)).succeeds with
    | false =>
      have hfail : ∃ c' ∈ c :: cs,
          (env (.addDeployment ip (s.services c').info.name)).succeeds = false :=
        ⟨c, List.mem_cons_self, hc⟩
      simp only [if_pos hfail]
      cases heffect : (env (.addDeployment ip (s.services c).info.name)).takesEffect with
      | true => exact ⟨_, rfl⟩
      | false => exact ⟨s.deployments, rfl⟩
    | true =>
      have hiff : (∃ c' ∈ c :: cs,
          (env (.addDeployment ip (s.services c').info.name)).succeeds = false) ↔
            ∃ c' ∈ cs, (env (.addDeployment ip (s.services c').info.name)).succeeds = false := by
        simp [hc]
      simp only [hiff, Choice.takesEffect_of_succeeds hc, if_true]
      rw [solo_bind_of_ok (solo_perform rfl), solo_bind_of_ok (solo_perform rfl)]
      obtain ⟨d, hd⟩ := solo_singlethreadUpdateEndpoints env m c _
        (s.setDeployment ip (s.services c).info.name
          (some ((s.deployments ip (s.services c).info.name).getD [])))
      rw [solo_bind_of_ok hd]
      exact ih _

/-- A data plane that was stored and is not connected: nothing has changed only if the same record
was stored before. -/
theorem sameRecords_stored_iff {info : DataplaneInfo}
    {d : String → String → Option (List EndpointInfo)}
    {dps : AList fun _ : String => DataplaneInfo}
    (hdps : ∀ k, dps.lookup k = s.dataPlaneConnections.lookup k) :
    SameRecords s { s with
      storedDataPlanes := s.storedDataPlanes.insert info.ip info
      deployments := d
      dataPlaneConnections := dps } ↔ s.storedDataPlanes.lookup info.ip = some info :=
  ⟨fun h => lookup_insert_eq_iff.1 h.storedDataPlanes, fun h => ⟨lookup_insert_eq_iff.2 h,
    fun _ => rfl, fun _ => rfl, hdps, fun _ => rfl, fun _ => rfl⟩⟩

theorem registerDataplane_atomic (info : DataplaneInfo) :
    Atomic env s (.registerDataplane info) ↔ ¬ AtomicityFault env s (.registerDataplane info) := by
  cases hdp : s.dataPlaneConnections.lookup info.ip with
  | some dp =>
    refine iff_of_true ?_ fun h => by simp [AtomicityFault, hdp] at h
    have hsolo : (answer (.registerDataplane info)).solo exec env s noLocks =
        .ok ({ success := true }, s, noLocks) := by
      refine solo_bind_of_ok (x := (({ success := true } : Reply), true))
        (solo_withLock_of_ok rfl (solo_withLock_of_ok rfl ?_))
      rw [solo_bind_of_ok (solo_perform rfl), hdp]
      rfl
    exact (atomic_iff_of_solo hsolo).2 (failsClean_of_success rfl)
  | none =>
    have herase := lookup_erase_eq_iff.2 hdp
    cases hstore : (env (.storeDataPlaneInformation info)).succeeds with
    | false =>
      have hsolo : (answer (.registerDataplane info)).solo exec env s noLocks =
          .ok ({ success := false, err := some .persistence },
            { (if (env (.storeDataPlaneInformation info)).takesEffect then
                { s with storedDataPlanes := s.storedDataPlanes.insert info.ip info } else s) with
              dataPlaneConnections := s.dataPlaneConnections.erase info.ip }, noLocks) := by
        refine solo_bind_of_ok
          (x := (({ success := false, err := some .persistence } : Reply), false))
          (solo_withLock_of_ok rfl (solo_withLock_of_ok rfl ?_))
        rw [solo_bind_of_ok (solo_perform rfl), hdp, Option.isSome_none, if_neg (by simp),
          solo_bind_of_ok (solo_perform rfl), hstore]
        cases (env (.storeDataPlaneInformation info)).takesEffect <;> rfl
      rw [atomic_iff_of_solo hsolo]
      cases heffect : (env (.storeDataPlaneInformation info)).takesEffect with
      | true =>
        have hiff : ¬ AtomicityFault env s (.registerDataplane info) ↔
            s.storedDataPlanes.lookup info.ip = some info := by
          simp [AtomicityFault, hdp, hstore, heffect]
        rw [hiff, ← sameRecords_stored_iff herase]
        exact ⟨fun h => h rfl, fun h _ => h⟩
      | false =>
        refine iff_of_true (fun _ => ?_) fun h => by simp [AtomicityFault, heffect] at h
        exact ⟨fun _ => rfl, fun _ => rfl, fun _ => rfl, herase, fun _ => rfl, fun _ => rfl⟩
    | true =>
      have heffect := Choice.takesEffect_of_succeeds hstore
      cases hconn : (env (.initializeDataPlaneConnection info)).succeeds with
      | false =>
        have hsolo : (answer (.registerDataplane info)).solo exec env s noLocks =
            .ok ({ success := false, err := some .connection },
              { s with
                storedDataPlanes := s.storedDataPlanes.insert info.ip info
                deployments := s.deployments
                dataPlaneConnections := s.dataPlaneConnections.erase info.ip }, noLocks) := by
          refine solo_bind_of_ok
            (x := (({ success := false, err := some .connection } : Reply), false))
            (solo_withLock_of_ok rfl (solo_withLock_of_ok rfl ?_))
          rw [solo_bind_of_ok (solo_perform rfl), hdp, Option.isSome_none, if_neg (by simp),
            solo_bind_of_ok (solo_perform rfl), hstore, heffect, if_pos rfl,
            solo_bind_of_ok (solo_perform rfl), hconn]
          rfl
        have hiff : ¬ AtomicityFault env s (.registerDataplane info) ↔
            s.storedDataPlanes.lookup info.ip = some info := by
          simp [AtomicityFault, hdp, heffect, hconn]
        rw [hiff, ← sameRecords_stored_iff herase, atomic_iff_of_solo hsolo]
        exact ⟨fun h => h rfl, fun h _ => h⟩
      | true =>
        obtain ⟨d, hd⟩ := solo_addDeployments env
          (Function.update (Function.update noLocks .siStorage written)
            .dataPlaneConnections written) info.ip (walkValues s.siStorage (env .services))
          { s with
            storedDataPlanes := s.storedDataPlanes.insert info.ip info
            dataPlaneConnections := s.dataPlaneConnections.insert info.ip info }
        have hperm := (env .services).arrange_perm (s.siStorage.entries.map Sigma.snd)
        have hrun : ∀ reply s',
          (addDeployments info.ip (walkValues s.siStorage (env .services))).solo
            exec env { s with
              storedDataPlanes := s.storedDataPlanes.insert info.ip info
              dataPlaneConnections := s.dataPlaneConnections.insert info.ip info }
            (Function.update (Function.update noLocks .siStorage written)
              .dataPlaneConnections written) = .ok (reply, s', Function.update
                (Function.update noLocks .siStorage written) .dataPlaneConnections written) →
            (answer (.registerDataplane info)).solo exec env s noLocks =
              .ok (reply, s', noLocks) := by
          intro reply s' hok
          refine solo_bind_of_ok (x := (reply, false))
            (solo_withLock_of_ok rfl (solo_withLock_of_ok rfl ?_))
          rw [solo_bind_of_ok (solo_perform rfl), hdp, Option.isSome_none, if_neg (by simp),
            solo_bind_of_ok (solo_perform rfl), hstore, heffect, if_pos rfl,
            solo_bind_of_ok (solo_perform rfl), hconn, if_pos rfl,
            solo_bind_of_ok (solo_perform rfl), solo_bind_of_ok (solo_perform rfl)]
          exact solo_bind_of_ok hok
        by_cases hfail : ∃ c ∈ walkValues s.siStorage (env .services),
            (env (.addDeployment info.ip (s.services c).info.name)).succeeds = false
        · rw [if_pos hfail] at hd
          have herase' : ∀ k,
              ((s.dataPlaneConnections.insert info.ip info).erase info.ip).lookup k =
                s.dataPlaneConnections.lookup k := by
            intro k
            rw [lookup_erase_ite, lookup_insert_ite]
            split_ifs with hk
            · rw [← hk, hdp]
            · rfl
          have hiff : ¬ AtomicityFault env s (.registerDataplane info) ↔
              s.storedDataPlanes.lookup info.ip = some info := by
            obtain ⟨c, hc, herr⟩ := hfail
            refine ⟨fun h => ?_, fun h hf => hf.2.2.1 h⟩
            by_contra hno
            exact h ⟨hdp, heffect, hno, .inr (.inr ⟨c, hperm.mem_iff.1 hc, herr⟩)⟩
          rw [hiff, ← sameRecords_stored_iff (d := d) herase', atomic_iff_of_solo (hrun _ _ hd)]
          exact ⟨fun h => h rfl, fun h _ => h⟩
        · rw [if_neg hfail] at hd
          refine iff_of_true ((atomic_iff_of_solo (hrun _ _ hd)).2 (failsClean_of_success rfl)) ?_
          rintro ⟨-, -, -, herr | herr | ⟨c, hc, herr⟩⟩
          · simp [hstore] at herr
          · simp [hconn] at herr
          · exact hfail ⟨c, hperm.mem_iff.2 hc, herr⟩

/-! ## `DeregisterService` -/

theorem sameRecords_deleted_iff {name : String}
    {d : String → String → Option (List EndpointInfo)} :
    SameRecords s { s with storedServices := s.storedServices.erase name, deployments := d } ↔
      s.storedServices.lookup name = none :=
  ⟨fun h => lookup_erase_eq_iff.1 h.storedServices, fun h => ⟨fun _ => rfl, fun _ => rfl,
    lookup_erase_eq_iff.2 h, fun _ => rfl, fun _ => rfl, fun _ => rfl⟩⟩

theorem deregisterService_atomic (name : String) :
    Atomic env s (.deregisterService name) ↔ ¬ AtomicityFault env s (.deregisterService name) := by
  cases hn : s.siStorage.lookup name with
  | none =>
    refine iff_of_true ?_ fun h => by simp [AtomicityFault, hn] at h
    have hsolo : (answer (.deregisterService name)).solo exec env s noLocks =
        .ok ({ success := false, err := some (.text "service is not registered") }, s,
          noLocks) := by
      refine solo_withLock_of_ok rfl ?_
      rw [solo_bind_of_ok (solo_perform rfl), hn]
      rfl
    exact (atomic_iff_of_solo hsolo).2 (failsClean_refl _)
  | some c =>
    cases hc : (env (.deleteServiceInformation name)).succeeds with
    | false =>
      have hsolo : (answer (.deregisterService name)).solo exec env s noLocks =
          .ok ({ success := false, err := some .persistence },
            if (env (.deleteServiceInformation name)).takesEffect then
              { s with
                storedServices := s.storedServices.erase name
                deployments := s.deployments } else s, noLocks) := by
        refine solo_withLock_of_ok rfl ?_
        rw [solo_bind_of_ok (solo_perform rfl), hn]
        refine (solo_bind_of_ok (solo_perform rfl)).trans ?_
        rw [hc]
        rfl
      rw [atomic_iff_of_solo hsolo, failsClean_ite_iff rfl sameRecords_deleted_iff]
      simp [AtomicityFault, hn, hc]
    | true =>
      have heffect := Choice.takesEffect_of_succeeds hc
      obtain ⟨d, hd⟩ := solo_removeServiceFromDataplane env
        (m := Function.update noLocks .siStorage written) rfl name
        { s with storedServices := s.storedServices.erase name }
      by_cases hfail : ∃ ip ∈ s.dataPlaneConnections.keys,
          (env (.deleteDeployment ip name)).succeeds = false
      · rw [if_pos hfail] at hd
        have hsolo : (answer (.deregisterService name)).solo exec env s noLocks =
            .ok ({ success := false, err := some .dataPlane },
              { s with storedServices := s.storedServices.erase name, deployments := d },
              Function.update (Function.update (Function.update noLocks .siStorage written)
                .dataPlaneConnections written) .siStorage {}) := by
          refine solo_withLock rfl ?_
          rw [solo_bind_of_ok (solo_perform rfl), hn]
          refine (solo_bind_of_ok (solo_perform rfl)).trans ?_
          rw [hc, heffect]
          exact solo_bind_of_ok hd
        have hiff : ¬ AtomicityFault env s (.deregisterService name) ↔
            s.storedServices.lookup name = none := by
          refine ⟨fun h => ?_, fun h hf => hf.2.2.1 h⟩
          by_contra hno
          exact h ⟨by simp [hn], heffect, hno, .inr hfail⟩
        rw [hiff, ← sameRecords_deleted_iff (d := d), atomic_iff_of_solo hsolo]
        exact ⟨fun h => h rfl, fun h _ => h⟩
      · rw [if_neg hfail] at hd
        refine iff_of_true ?_ fun h => h.2.2.2.elim (fun herr => by simp [hc] at herr) hfail
        have hsolo : (answer (.deregisterService name)).solo exec env s noLocks =
            .ok ({ success := true },
              { s with
                storedServices := s.storedServices.erase name
                deployments := d
                services := Function.update s.services c
                  { s.services c with channelClosed := true }
                siStorage := s.siStorage.erase name }, noLocks) := by
          refine solo_withLock_of_ok rfl ?_
          rw [solo_bind_of_ok (solo_perform rfl), hn]
          refine (solo_bind_of_ok (solo_perform rfl)).trans ?_
          rw [hc, heffect]
          exact (solo_bind_of_ok hd).trans rfl
        exact (atomic_iff_of_solo hsolo).2 (failsClean_of_success rfl)

/-- **Registrations that fail change nothing, except in the cases of `AtomicityFault`.** -/
theorem registration_atomic_iff (env : Act → Choice) (s : State) (r : Registration) :
    Atomic env s r ↔ ¬ AtomicityFault env s r := by
  cases r with
  | registerDataplane info => exact registerDataplane_atomic info
  | deregisterDataplane info => exact deregisterDataplane_atomic info
  | registerNode info => exact iff_of_true (registerNode_atomic info) id
  | deregisterNode nodeID => exact deregisterNode_atomic nodeID
  | registerService info => exact iff_of_true (registerService_atomic info) id
  | deregisterService name => exact deregisterService_atomic name

/-- On an empty control plane, a data plane that cannot be reached stays in the store after the
registration has failed. -/
theorem not_registration_atomic :
    ¬ ∀ (env : Act → Choice) (s : State) (r : Registration), Atomic env s r := by
  intro h
  let unreachable : Act → Choice
    | .initializeDataPlaneConnection _ => .error
    | _ => .ok
  have hsame := h unreachable (newControlPlane false false)
    (.registerDataplane ⟨"10.0.0.1", 8081, 8080⟩) _ _ _ rfl rfl
  exact absurd (hsame.storedDataPlanes "10.0.0.1") (by decide)

end Dirigent.ControlPlane
