import Dirigent.ControlPlane.Locking

/-!
# Objects exist

The objects that the storages point to and that goroutines know exist: their numbers are below the
counters, so no later allocation overwrites them.

* `Allocated` — the objects in a set exist, and whatever they point to is in the set; kept by every
  action on them (`Allocated.exec`).
* `exists_known_of_run` — in every run there is such a set that has all that goroutines know.
-/

namespace Dirigent.ControlPlane

open Threads

/-- The objects in `K` exist, and `K` has what they and the storages point to. -/
structure Allocated (s : State) (K : Set Ref) : Prop where
  node : ∀ n, .node n ∈ K → n < s.nodeCount
  service : ∀ c, .service c ∈ K → c < s.serviceCount
  endpoint : ∀ e, .endpoint e ∈ K → e < s.endpointCount
  niStorage : ∀ name n, s.niStorage.lookup name = some n →
    .node n ∈ K ∧ (s.nodes n).info.nodeID = name
  siStorage : ∀ name c, s.siStorage.lookup name = some c →
    .service c ∈ K ∧ (s.services c).info.name = name
  listed : ∀ c, .service c ∈ K → ∀ e ∈ (s.services c).endpoints, .endpoint e ∈ K
  placed : ∀ e, .endpoint e ∈ K → ∀ n, (s.endpoints e).node = some n → .node n ∈ K
  mapped : ∀ n, .node n ∈ K → ∀ e ∈ (s.nodes n).endpointMap.keys, .endpoint e ∈ K

/-- The part of the state that `Allocated` speaks about. -/
def State.objects (s : State) :=
  (s.nodes, s.nodeCount, s.services, s.serviceCount, s.endpoints, s.endpointCount, s.niStorage,
    s.siStorage)

variable {β X : Type} {m : AList fun _ : String => β} {b : β} {ch : Choice} {e c i : ℕ}
  {s s' : State} {a : Act} {r : a.Ans} {f : Service → Service} {op : Op} {init : State → Prop}
  {entry : Op → Bool} {tr : Trace}

theorem mem_values_iff_lookup :
    b ∈ m.entries.map Sigma.snd ↔ ∃ k, m.lookup k = some b := by
  constructor
  · intro hb
    obtain ⟨⟨k, b'⟩, hmem, rfl⟩ := List.mem_map.1 hb
    exact ⟨k, AList.mem_lookup_iff.2 hmem⟩
  · rintro ⟨k, hk⟩
    exact List.mem_map.2 ⟨⟨k, b⟩, AList.mem_lookup_iff.1 hk, rfl⟩

theorem mem_walkValues :
    b ∈ walkValues m ch ↔ ∃ k, m.lookup k = some b := by
  rw [walkValues, (ch.arrange_perm _).mem_iff, mem_values_iff_lookup]

namespace Allocated

variable {s s' : State} {K : Set Ref} {n c e : ℕ}

theorem frame (h : Allocated s K) (hs : s'.objects = s.objects) : Allocated s' K := by
  simp only [State.objects, Prod.mk.injEq] at hs
  obtain ⟨h₁, h₂, h₃, h₄, h₅, h₆, h₇, h₈⟩ := hs
  refine ⟨?_, ?_, ?_, ?_, ?_, ?_, ?_, ?_⟩
  · rw [h₂]; exact h.node
  · rw [h₄]; exact h.service
  · rw [h₆]; exact h.endpoint
  · rw [h₇, h₁]; exact h.niStorage
  · rw [h₈, h₃]; exact h.siStorage
  · rw [h₃]; exact h.listed
  · rw [h₅]; exact h.placed
  · rw [h₁]; exact h.mapped

theorem modifyService {f : Service → Service} (h : Allocated s K)
    (hinfo : (f (s.services c)).info = (s.services c).info)
    (hes : ∀ e ∈ (f (s.services c)).endpoints, .endpoint e ∈ K) :
    Allocated (s.modifyService c f) K := by
  refine ⟨h.node, h.service, h.endpoint, h.niStorage, ?_, ?_, h.placed, h.mapped⟩
  · intro name c' hc'
    obtain ⟨hK, hname⟩ := h.siStorage name c' hc'
    refine ⟨hK, ?_⟩
    by_cases hcc : c' = c
    · subst hcc
      simpa [State.modifyService, hinfo] using hname
    · simpa [State.modifyService, hcc] using hname
  · intro c' hc' e he
    by_cases hcc : c' = c
    · subst hcc
      exact hes e (by simpa [State.modifyService] using he)
    · exact h.listed c' hc' e (by simpa [State.modifyService, hcc] using he)

theorem modifyNode {f : WorkerNode → WorkerNode} (h : Allocated s K)
    (hinfo : (f (s.nodes n)).info = (s.nodes n).info)
    (hmap : ∀ e ∈ (f (s.nodes n)).endpointMap.keys, .endpoint e ∈ K) :
    Allocated (s.modifyNode n f) K := by
  refine ⟨h.node, h.service, h.endpoint, ?_, h.siStorage, h.listed, h.placed, ?_⟩
  · intro name n' hn'
    obtain ⟨hK, hname⟩ := h.niStorage name n' hn'
    refine ⟨hK, ?_⟩
    by_cases hnn : n' = n
    · subst hnn
      simpa [State.modifyNode, hinfo] using hname
    · simpa [State.modifyNode, hnn] using hname
  · intro n' hn' e he
    by_cases hnn : n' = n
    · subst hnn
      exact hmap e (by simpa [State.modifyNode] using he)
    · exact h.mapped n' hn' e (by simpa [State.modifyNode, hnn] using he)

theorem newNode (h : Allocated s K) (info : NodeInfo) :
    Allocated { s with
      nodes := Function.update s.nodes s.nodeCount { info := info, endpointMap := ∅ }
      nodeCount := s.nodeCount + 1 } (insert (.node s.nodeCount) K) := by
  have hne : ∀ n, Ref.node n ∈ K → n ≠ s.nodeCount := fun n hn => (h.node n hn).ne
  refine ⟨?_, ?_, ?_, ?_, ?_, ?_, ?_, ?_⟩
  · rintro n (hn | hn)
    · cases hn
      exact Nat.lt_succ_self _
    · exact Nat.lt_succ_of_lt (h.node n hn)
  · rintro c (hc | hc)
    · cases hc
    · exact h.service c hc
  · rintro e (he | he)
    · cases he
    · exact h.endpoint e he
  · intro name n hn
    obtain ⟨hK, hname⟩ := h.niStorage name n hn
    exact ⟨.inr hK, by simpa [hne n hK] using hname⟩
  · intro name c hc
    obtain ⟨hK, hname⟩ := h.siStorage name c hc
    exact ⟨.inr hK, hname⟩
  · rintro c (hc | hc) e he
    · cases hc
    · exact .inr (h.listed c hc e he)
  · rintro e (he | he) n hn
    · cases he
    · exact .inr (h.placed e he n hn)
  · rintro n (hn | hn) e he
    · cases hn
      simp at he
    · exact .inr (h.mapped n hn e (by simpa [hne n hn] using he))

theorem newEndpoint (h : Allocated s K) {ep : Endpoint}
    (hnode : ∀ n, ep.node = some n → .node n ∈ K) : Allocated { s with
      endpoints := Function.update s.endpoints s.endpointCount ep
      endpointCount := s.endpointCount + 1 } (insert (.endpoint s.endpointCount) K) := by
  have hne : ∀ e, Ref.endpoint e ∈ K → e ≠ s.endpointCount := fun e he => (h.endpoint e he).ne
  refine ⟨?_, ?_, ?_, ?_, ?_, ?_, ?_, ?_⟩
  · rintro n (hn | hn)
    · cases hn
    · exact h.node n hn
  · rintro c (hc | hc)
    · cases hc
    · exact h.service c hc
  · rintro e (he | he)
    · cases he
      exact Nat.lt_succ_self _
    · exact Nat.lt_succ_of_lt (h.endpoint e he)
  · intro name n hn
    exact ⟨.inr (h.niStorage name n hn).1, (h.niStorage name n hn).2⟩
  · intro name c hc
    exact ⟨.inr (h.siStorage name c hc).1, (h.siStorage name c hc).2⟩
  · rintro c (hc | hc) e he
    · cases hc
    · exact .inr (h.listed c hc e he)
  · rintro e (he | he) n hn
    · cases he
      exact .inr (hnode n (by simpa using hn))
    · exact .inr (h.placed e he n (by simpa [hne e he] using hn))
  · rintro n (hn | hn) e he
    · cases hn
    · exact .inr (h.mapped n hn e he)

theorem setService (h : Allocated s K) (info : ServiceInfo) (r : Bool) :
    Allocated { s with
      services := Function.update s.services s.serviceCount { info := info, reconstructed := r }
      siStorage := s.siStorage.insert info.name s.serviceCount
      serviceCount := s.serviceCount + 1 } (insert (.service s.serviceCount) K) := by
  have hne : ∀ c, Ref.service c ∈ K → c ≠ s.serviceCount := fun c hc => (h.service c hc).ne
  refine ⟨?_, ?_, ?_, ?_, ?_, ?_, ?_, ?_⟩
  · rintro n (hn | hn)
    · cases hn
    · exact h.node n hn
  · rintro c (hc | hc)
    · cases hc
      exact Nat.lt_succ_self _
    · exact Nat.lt_succ_of_lt (h.service c hc)
  · rintro e (he | he)
    · cases he
    · exact h.endpoint e he
  · intro name n hn
    exact ⟨.inr (h.niStorage name n hn).1, (h.niStorage name n hn).2⟩
  · intro name c hc
    by_cases hname : name = info.name
    · subst hname
      rw [AList.lookup_insert, Option.some.injEq] at hc
      subst hc
      exact ⟨.inl rfl, by simp⟩
    · rw [AList.lookup_insert_ne hname] at hc
      obtain ⟨hK, hc'⟩ := h.siStorage name c hc
      exact ⟨.inr hK, by simpa [hne c hK] using hc'⟩
  · rintro c (hc | hc) e he
    · cases hc
      simp at he
    · exact .inr (h.listed c hc e (by simpa [hne c hc] using he))
  · rintro e (he | he) n hn
    · cases he
    · exact .inr (h.placed e he n hn)
  · rintro n (hn | hn) e he
    · cases hn
    · exact .inr (h.mapped n hn e he)

theorem setNode (h : Allocated s K) (hn : .node n ∈ K) :
    Allocated { s with niStorage := s.niStorage.insert (s.nodes n).info.nodeID n } K := by
  refine ⟨h.node, h.service, h.endpoint, ?_, h.siStorage, h.listed, h.placed, h.mapped⟩
  intro name m hm
  by_cases hname : name = (s.nodes n).info.nodeID
  · subst hname
    rw [AList.lookup_insert, Option.some.injEq] at hm
    subst hm
    exact ⟨hn, rfl⟩
  · rw [AList.lookup_insert_ne hname] at hm
    exact h.niStorage name m hm

theorem removeNode (h : Allocated s K) (name : String) :
    Allocated { s with niStorage := s.niStorage.erase name } K := by
  refine ⟨h.node, h.service, h.endpoint, ?_, h.siStorage, h.listed, h.placed, h.mapped⟩
  intro name' m hm
  by_cases hname : name' = name
  · subst hname
    simp at hm
  · rw [AList.lookup_erase_ne hname] at hm
    exact h.niStorage name' m hm

theorem removeService (h : Allocated s K) (name : String) :
    Allocated { s with siStorage := s.siStorage.erase name } K := by
  refine ⟨h.node, h.service, h.endpoint, h.niStorage, ?_, h.listed, h.placed, h.mapped⟩
  intro name' m hm
  by_cases hname : name' = name
  · subst hname
    simp at hm
  · rw [AList.lookup_erase_ne hname] at hm
    exact h.siStorage name' m hm

end Allocated

theorem mem_of_mem_excludeEndpoints {es es' : List ℕ} (he : e ∈ excludeEndpoints es es') :
    e ∈ es := List.mem_of_mem_filter he

theorem mem_victims {n : ℕ} {draws es acc : List ℕ} (he : e ∈ victims n draws es acc) :
    e ∈ es ∨ e ∈ acc := by
  induction n generalizing draws es acc with
  | zero => exact .inr he
  | succ n ih =>
    simp only [victims] at he
    cases hp : evictionPolicy (draws.headD 0) es with
    | none =>
      rw [hp] at he
      exact ih he
    | some v =>
      rw [hp] at he
      simp only [evictionPolicy, Option.map_eq_some_iff] at hp
      obtain ⟨e', he', rfl⟩ := hp
      rcases ih he with h | h
      · exact .inl (List.mem_of_mem_eraseIdx h)
      · rcases List.mem_insert_iff.1 h with rfl | h
        · exact .inl (List.mem_of_getElem? he')
        · exact .inr h

/-- **An action on objects that exist** leaves and gives objects that exist. -/
theorem Allocated.exec {K : Set Ref} (h : Allocated s K) (ha : ∀ v ∈ a.refs, v ∈ K)
    (he : ControlPlane.exec a s ch = some (r, s')) :
    ∃ K', K ⊆ K' ∧ Allocated s' K' ∧ ∀ v ∈ a.gives r, v ∈ K' := by
  have hkeep : Allocated s' K → (∀ v ∈ a.gives r, v ∈ K) →
      ∃ K', K ⊆ K' ∧ Allocated s' K' ∧ ∀ v ∈ a.gives r, v ∈ K' :=
    fun hs' hr => ⟨K, subset_rfl, hs', hr⟩
  have hnil : ∀ v ∈ ([] : List Ref), v ∈ K := fun v hv => by cases hv
  cases a with
  | newNode info =>
    cases he
    exact ⟨_, Set.subset_insert _ _, h.newNode info, by simp [Act.gives]⟩
  | newEndpoint ep =>
    cases he
    refine ⟨_, Set.subset_insert _ _, h.newEndpoint fun n hn => ha _ ?_, by simp [Act.gives]⟩
    simp [Act.refs, hn]
  | setService info r =>
    cases he
    exact ⟨_, Set.subset_insert _ _, h.setService info _, by simp [Act.gives]⟩
  | setNode n =>
    cases he
    exact hkeep (h.setNode (ha _ (List.mem_singleton_self _))) hnil
  | removeNode name =>
    cases he
    exact hkeep (h.removeNode name) hnil
  | removeService name =>
    cases he
    exact hkeep (h.removeService name) hnil
  -- lookups and walks of the storages
  | getNode name =>
    cases he
    refine hkeep h fun v hv => ?_
    simp only [Act.gives, List.mem_map, Option.mem_toList] at hv
    obtain ⟨n, hn, rfl⟩ := hv
    exact (h.niStorage name n hn).1
  | getNodeToUnlock name locked =>
    cases he
    refine hkeep h fun v hv => ?_
    simp only [Act.gives, List.mem_map, Option.mem_toList] at hv
    obtain ⟨n, hn, rfl⟩ := hv
    exact (h.niStorage name n hn).1
  | getService name =>
    cases he
    refine hkeep h fun v hv => ?_
    simp only [Act.gives, List.mem_map, Option.mem_toList] at hv
    obtain ⟨c, hc, rfl⟩ := hv
    exact (h.siStorage name c hc).1
  | nodes =>
    cases he
    refine hkeep h fun v hv => ?_
    obtain ⟨n, hn, rfl⟩ := List.mem_map.1 hv
    obtain ⟨name, hname⟩ := mem_walkValues.1 hn
    exact (h.niStorage name n hname).1
  | services =>
    cases he
    refine hkeep h fun v hv => ?_
    obtain ⟨c, hc, rfl⟩ := List.mem_map.1 hv
    obtain ⟨name, hname⟩ := mem_walkValues.1 hc
    exact (h.siStorage name c hname).1
  | place =>
    simp only [ControlPlane.exec] at he
    split at he
    · next n =>
      split_ifs at he with hn
      cases he
      refine hkeep h fun v hv => ?_
      obtain rfl := List.mem_singleton.1 hv
      obtain ⟨name, hname⟩ := mem_values_iff_lookup.1 hn.1
      exact (h.niStorage name n hname).1
    · cases he
      exact hkeep h hnil
  -- endpoints
  | getEndpoint e =>
    cases he
    refine hkeep h fun v hv => ?_
    simp only [Act.gives, List.mem_map, Option.mem_toList] at hv
    obtain ⟨n, hn, rfl⟩ := hv
    exact h.placed e (ha _ (List.mem_singleton_self _)) n hn
  | getEndpoints c =>
    cases he
    refine hkeep h fun v hv => ?_
    obtain ⟨e, he, rfl⟩ := List.mem_map.1 hv
    exact h.listed c (ha _ (List.mem_singleton_self _)) e he
  | searchEndpoint c cid =>
    cases he
    refine hkeep h fun v hv => ?_
    simp only [Act.gives, List.mem_map, Option.mem_toList] at hv
    obtain ⟨e, he, rfl⟩ := hv
    exact h.listed c (ha _ (List.mem_singleton_self _)) e (List.mem_of_find?_eq_some he)
  | setEndpoints c seen e =>
    cases he
    refine hkeep (h.modifyService rfl fun e' he' => ha _ ?_) hnil
    rcases List.mem_append.1 he' with he' | he'
    · simp [Act.refs, he']
    · simp [Act.refs, List.mem_singleton.1 he']
  | excludeEndpoints c es =>
    cases he
    exact hkeep (h.modifyService rfl fun e' he' =>
      h.listed c (ha _ List.mem_cons_self) e' (mem_of_mem_excludeEndpoints he')) hnil
  | excludeEndpointsOnNode c nodeID =>
    simp only [ControlPlane.exec] at he
    split at he
    · cases he
      exact hkeep (h.modifyService rfl fun e' he' =>
        h.listed c (ha _ (List.mem_singleton_self _)) e' (mem_of_mem_excludeEndpoints he')) hnil
    · cases he
      exact hkeep h hnil
  | evict c n =>
    cases he
    have hc : Ref.service c ∈ K := ha _ (List.mem_singleton_self _)
    refine hkeep (h.modifyService rfl fun e' he' =>
      h.listed c hc e' (mem_of_mem_excludeEndpoints he')) fun v hv => ?_
    obtain ⟨e, he, rfl⟩ := List.mem_map.1 hv
    rcases mem_victims he with he | he
    · exact h.listed c hc e he
    · cases he
  -- a node's endpoint map and flags
  | endpointMapSet n e name =>
    cases he
    refine hkeep (h.modifyNode rfl fun e' he' => ?_) hnil
    rcases (AList.mem_insert _).1 he' with rfl | he'
    · exact ha _ (by simp [Act.refs])
    · exact h.mapped n (ha _ (by simp [Act.refs])) e' he'
  | endpointMapRemove n e =>
    cases he
    refine hkeep (h.modifyNode rfl fun e' he' => ?_) hnil
    exact h.mapped n (ha _ (by simp [Act.refs])) e' (AList.mem_erase.1 he').2
  | setSchedulability n val =>
    cases he
    exact hkeep (h.modifyNode rfl (h.mapped n (ha _ (List.mem_singleton_self _)))) hnil
  | connectToWorker n =>
    simp only [ControlPlane.exec] at he
    split at he
    · cases he
      exact hkeep h hnil
    · cases he
      refine hkeep ?_ hnil
      split
      · exact h.modifyNode rfl (h.mapped n (ha _ (List.mem_singleton_self _)))
      · exact h
  | receive c =>
    simp only [ControlPlane.exec] at he
    split at he
    · cases he
      exact hkeep h hnil
    · obtain ⟨n, -, hn⟩ := Option.map_eq_some_iff.1 he
      cases hn
      exact hkeep (h.modifyService rfl (h.listed c (ha _ (List.mem_singleton_self _)))) hnil
  | _ =>
    -- the other actions change no object, or neither the name nor the endpoints of a service
    simp only [ControlPlane.exec] at he
    repeat' split at he
    all_goals cases he
    all_goals refine hkeep ?_ hnil
    all_goals
      first
      | exact h.frame rfl
      | exact h.modifyService rfl (h.listed _ (ha _ (List.mem_singleton_self _)))

/-! ## Who changes a service -/

/-- The service that an action may change. -/
def Act.target : Act → Option ℕ
  | .closeChannel c | .casAutoscaling c | .clearAutoscaling c | .makeStopCh c | .sendStop c
  | .closeStopCh c | .dropStopCh c | .selectTick c | .offer c _ | .receive c | .tryReceive c
  | .swapActualScale c _ | .addActualScale c _ | .setEndpoints c _ _ | .excludeEndpoints c _
  | .excludeEndpointsOnNode c _ | .evict c _ => some c
  | _ => none

theorem modifyService_services_ne {c c' : ℕ} (h : c ≠ c') :
    (s.modifyService c' f).services c = s.services c := Function.update_of_ne h _ _

theorem modifyService_services_self :
    (s.modifyService c f).services c = f (s.services c) := Function.update_self _ _ _

/-- **The other services stay as they are.** -/
theorem exec_services_of_target_ne (hc : c < s.serviceCount) (ha : a.target ≠ some c)
    (he : exec a s ch = some (r, s')) :
    s'.services c = s.services c := by
  cases a with
  | setService info r =>
    cases he
    exact Function.update_of_ne hc.ne _ _
  | receive c' =>
    have hne : c ≠ c' := fun h => ha (h ▸ rfl)
    obtain rfl | rfl := exec_receive_state he
    · rfl
    · exact modifyService_services_ne hne
  | _ =>
    simp only [exec] at he
    repeat' split at he
    all_goals cases he
    all_goals
      first
      | rfl
      | exact modifyService_services_ne fun h => ha (h ▸ rfl)

theorem exec_serviceCount (he : exec a s ch = some (r, s')) : s.serviceCount ≤ s'.serviceCount := by
  cases a with
  | setService info r =>
    cases he
    exact Nat.le_succ _
  | receive c =>
    obtain rfl | rfl := exec_receive_state he <;> exact le_rfl
  | _ =>
    simp only [exec] at he
    repeat' split at he
    all_goals cases he
    all_goals exact le_rfl

theorem exec_endpoints (he : exec a s ch = some (r, s')) (hlt : e < s.endpointCount) :
    e < s'.endpointCount ∧ s'.endpoints e = s.endpoints e := by
  cases a with
  | newEndpoint ep =>
    cases he
    exact ⟨Nat.lt_succ_of_lt hlt, Function.update_of_ne hlt.ne _ _⟩
  | receive c =>
    obtain rfl | rfl := exec_receive_state he <;> exact ⟨hlt, rfl⟩
  | _ =>
    simp only [exec] at he
    repeat' split at he
    all_goals cases he
    all_goals exact ⟨hlt, rfl⟩

/-- Only closing its channel changes whether a service's channel is closed, and nothing its
record. -/
theorem exec_service (hc : c < s.serviceCount) (he : exec a s ch = some (r, s')) :
    (s'.services c).info = (s.services c).info ∧
      (a ≠ .closeChannel c →
        (s'.services c).channelClosed = (s.services c).channelClosed) := by
  by_cases htarget : a.target = some c
  · cases a with
    | closeChannel c' =>
      cases htarget
      cases he
      exact ⟨by rw [modifyService_services_self], fun h => absurd rfl h⟩
    | receive c' =>
      cases htarget
      obtain rfl | rfl := exec_receive_state he
      · exact ⟨rfl, fun _ => rfl⟩
      · rw [modifyService_services_self]
        exact ⟨rfl, fun _ => rfl⟩
    | _ =>
      cases htarget
      all_goals simp only [exec] at he
      all_goals repeat' split at he
      all_goals cases he
      all_goals first | exact ⟨rfl, fun _ => rfl⟩ | simp [modifyService_services_self]
  · rw [exec_services_of_target_ne hc htarget he]
    exact ⟨rfl, fun _ => rfl⟩

/-- **A channel stays closed.** -/
theorem exec_channelClosed (hc : c < s.serviceCount) (he : exec a s ch = some (r, s'))
    (hclosed : (s.services c).channelClosed = true) : (s'.services c).channelClosed = true := by
  by_cases ha : a = .closeChannel c
  · subst ha
    cases he
    rw [modifyService_services_self]
  · rw [(exec_service hc he).2 ha]
    exact hclosed

theorem exec_siStorage {name : String} (he : exec a s ch = some (r, s'))
    (hc : s'.siStorage.lookup name = some c) :
    s.siStorage.lookup name = some c ∨
      ∃ info b, a = .setService info b ∧ c = s.serviceCount ∧ name = info.name := by
  cases a with
  | setService info b =>
    cases he
    by_cases hname : name = info.name
    · subst hname
      rw [AList.lookup_insert, Option.some.injEq] at hc
      exact .inr ⟨info, b, rfl, hc.symm, rfl⟩
    · rw [AList.lookup_insert_ne hname] at hc
      exact .inl hc
  | removeService name' =>
    cases he
    by_cases hname : name = name'
    · subst hname
      simp at hc
    · rw [AList.lookup_erase_ne hname] at hc
      exact .inl hc
  | receive c' =>
    obtain rfl | rfl := exec_receive_state he <;> exact .inl hc
  | _ =>
    simp only [exec] at he
    repeat' split at he
    all_goals cases he
    all_goals exact .inl hc

/-! ## Runs -/

/-- The control plane with its goroutines. -/
abbrev System := Pool (Shared Lock State) (Goroutine Op (Code Unit))

abbrev Trace := List (Machine.Step System (Threads.Event Op Choice))

def isHalt : Code Unit → Bool
  | .halt => true
  | _ => false

/-- The action that a goroutine is at. -/
def actOf (t : Goroutine Op (Code Unit)) : Option Act :=
  match t.code with
  | .act a _ => some a
  | _ => none

/-- The action of a step. -/
def stepAct (st : Machine.Step System (Threads.Event Op Choice)) : Option Act :=
  match st.event with
  | .run i _ => st.src.threads[i]?.bind actOf
  | .start _ => none

/-- The goroutines of the control plane from other initial states and with other calls. -/
def controlPlaneFrom (init : State → Prop) (entry : Op → Bool) :
    Lang Lock Act Op Act.Ans State Choice where
  init := init
  exec := exec
  body := body
  entry := entry

theorem controlPlane_eq : controlPlane = controlPlaneFrom Fresh Op.isCall := rfl

/-- A new control plane on an empty store, without snapshots and endpoint persistence. -/
def newSystem : System := ⟨⟨newControlPlane false false, fun _ => {}, fun _ => 0⟩, []⟩

theorem init_newSystem : controlPlane.threads.machine.init newSystem :=
  ⟨⟨⟨rfl, rfl, rfl, rfl⟩, rfl, rfl⟩, rfl⟩

/-- There is a set of objects that exist and that has what every goroutine knows. -/
def KnownSound (s : Shared Lock State) (gs : List (Goroutine Op (Op × List Ref))) : Prop :=
  ∃ K, Allocated s.data K ∧ ∀ g ∈ gs,
    g.code.1 = g.op ∧ (∀ v ∈ g.code.2, v ∈ K) ∧ ∀ v ∈ g.op.refs, v ∈ K

theorem KnownSound.call {s : Shared Lock State} {gs : List (Goroutine Op (Op × List Ref))}
    (h : KnownSound s gs) (hop : op.refs = []) :
    KnownSound s (gs ++ [known.goroutine none op]) := by
  obtain ⟨K, hK, hgs⟩ := h
  exact ⟨K, hK, forall_mem_concat hgs (by simp [Protocol.goroutine, known, hop])⟩

theorem KnownSound.move {s s' : Shared Lock State} {gs new : List (Goroutine Op (Op × List Ref))}
    {g g' : Goroutine Op (Op × List Ref)} (h : KnownSound s gs) (hg : gs[i]? = some g)
    (hm : known.Moves exec s i g ch s' g' new) :
    KnownSound s' (advance gs i g' new) := by
  obtain ⟨K, hK, hgs⟩ := h
  obtain ⟨hrun, hcode, hop⟩ := hgs g (List.mem_of_getElem? hg)
  -- it is enough to look at the goroutine that moves and at those it starts
  have hrest : ∀ K', K ⊆ K' → Allocated s'.data K' →
      g'.code.1 = g'.op → (∀ v ∈ g'.code.2, v ∈ K') → (∀ v ∈ g'.op.refs, v ∈ K') →
      (∀ u ∈ new, u.code.1 = u.op ∧ (∀ v ∈ u.code.2, v ∈ K') ∧ ∀ v ∈ u.op.refs, v ∈ K') →
      KnownSound s' (advance gs i g' new) := by
    intro K' hsub hK' hrun' hcode' hop' hnew
    refine ⟨K', hK', fun u hu => ?_⟩
    rcases mem_of_mem_advance hu with rfl | hsame | hu
    · exact ⟨hrun', hcode', hop'⟩
    · obtain ⟨h₀, h₁, h₂⟩ := hgs u hsame
      exact ⟨h₀, fun v hv => hsub (h₁ v hv), fun v hv => hsub (h₂ v hv)⟩
    · exact hnew u hu
  have hstarted : ∀ (cs : List Op) (parent : Option ℕ),
      (∀ c ∈ cs, g.code.1.mayStart c = true ∧ c.refs ⊆ g.code.2) →
      ∀ u ∈ cs.map (known.goroutine parent),
        u.code.1 = u.op ∧ (∀ v ∈ u.code.2, v ∈ K) ∧ ∀ v ∈ u.op.refs, v ∈ K := by
    intro cs parent hcs u hu
    obtain ⟨c, hc, rfl⟩ := List.mem_map.1 hu
    exact ⟨rfl, fun v hv => hcode v ((hcs c hc).2 hv), fun v hv => hcode v ((hcs c hc).2 hv)⟩
  have hnone : ∀ u ∈ ([] : List (Goroutine Op (Op × List Ref))),
      u.code.1 = u.op ∧ (∀ v ∈ u.code.2, v ∈ K) ∧ ∀ v ∈ u.op.refs, v ∈ K :=
    fun u hu => by cases hu
  cases hm with
  | @act a r d _ hguard hexec =>
    obtain ⟨K', hsub, hK', hgives⟩ := hK.exec (fun v hv => hcode v (hguard.2 hv)) hexec
    exact hrest K' hsub hK' hrun (List.forall_mem_append.2 ⟨hgives, fun v hv => hsub (hcode v hv)⟩)
      (fun v hv => hsub (hop v hv)) (List.forall_mem_nil _)
  | go _ hguard => exact hrest K subset_rfl hK hrun hcode hop (hstarted _ none hguard)
  | join _ hguard => exact hrest K subset_rfl hK hrun hcode hop (hstarted _ (some i) hguard)
  | jump _ hguard =>
    exact hrest K subset_rfl hK rfl (fun v hv => hcode v (hguard.2 hv))
      (fun v hv => hcode v (hguard.2 hv)) hnone
  | finish =>
    refine hrest K subset_rfl ?_ hrun hcode hop hnone
    cases g.parent <;> exact hK
  | announce | acquire | unlock | rlock | runlock | joined =>
    exact hrest K subset_rfl hK hrun hcode hop hnone

/-- The goroutines as `known` sees them. -/
def viewKnown {X : Type} (gs : List (Goroutine Op ((Op × List Ref) × X))) :
    List (Goroutine Op (Op × List Ref)) := gs.map (Goroutine.map Prod.fst)

theorem viewKnown_getElem? {gs : List (Goroutine Op ((Op × List Ref) × X))}
    {g : Goroutine Op ((Op × List Ref) × X)} (hg : gs[i]? = some g) :
    (viewKnown gs)[i]? = some (g.map Prod.fst) := by
  simp [viewKnown, hg]

/-- What a goroutine was started as, or jumped to, exists. -/
theorem KnownSound.exists_allocated {s : Shared Lock State}
    {gs : List (Goroutine Op ((Op × List Ref) × X))} (h : KnownSound s (viewKnown gs)) :
    ∃ K, Allocated s.data K ∧ ∀ g ∈ gs,
      g.code.1.1 = g.op ∧ (∀ v ∈ g.code.1.2, v ∈ K) ∧ ∀ v ∈ g.op.refs, v ∈ K := by
  obtain ⟨K, hK, hgs⟩ := h
  exact ⟨K, hK, fun g hg => hgs (g.map Prod.fst) (List.mem_map_of_mem hg)⟩

/-- **The invariant rule** for a further protocol of the goroutines, with what `known` gives. -/
theorem exists_known_of_run {W : Protocol Lock Act Op Act.Ans X}
    (hW : ∀ op, W.Follows anyAnswer (body op) (fun _ => W.ended) (W.start op))
    (hinit : ∀ s, init s → ∃ K, Allocated s K) (hentry : ∀ op, entry op = true → op.refs = [])
    {G : Machine.Step System (Threads.Event Op Choice) → Prop}
    {J : Shared Lock State → List (Goroutine Op ((Op × List Ref) × X)) → Prop}
    (h₀ : ∀ s, (controlPlaneFrom init entry).threads.init s → J s [])
    (hcall : ∀ s ts gs op s', G ⟨⟨s, ts⟩, .start op, s'⟩ → entry op = true → J s gs →
      J s (gs ++ [(known.prod W).goroutine none op]))
    (hmove : ∀ s ts gs s' ts' i ch g g' new, G ⟨⟨s, ts⟩, .run i ch, ⟨s', ts'⟩⟩ →
      List.Forall₂ ((known.prod W).Sim anyAnswer) gs ts → gs[i]? = some g →
      (known.prod W).Moves exec s i g ch s' g' new → KnownSound s (viewKnown gs) → J s gs →
      J s' (advance gs i g' new)) {s : System}
    (h : (controlPlaneFrom init entry).threads.machine.Run tr s) (hG : ∀ st ∈ tr, G st) :
    ∃ gs, List.Forall₂ ((known.prod W).Sim anyAnswer) gs s.threads ∧
      KnownSound s.shared (viewKnown gs) ∧ J s.shared gs := by
  refine Protocol.exists_of_run (B := known.prod W) (G := G)
    (I := fun s gs => KnownSound s (viewKnown gs) ∧ J s gs) (fun op => ?_) ?_ ?_ ?_ ?_ h hG
  · exact Protocol.Follows.mono ((knows_body op).prod (hW op)) fun _ _ hend => hend
  · intro s hs
    obtain ⟨K, hK⟩ := hinit s.data hs.1
    exact ⟨⟨K, hK, fun g hg => by cases hg⟩, h₀ s hs⟩
  · rintro s ts gs op s' hGst hop ⟨hknown, hJ⟩
    refine ⟨?_, hcall s ts gs op s' hGst hop hJ⟩
    rw [viewKnown, List.map_append]
    exact hknown.call (hentry op hop)
  · exact fun _ _ _ _ _ _ _ _ _ _ _ _ _ _ => trivial
  · rintro s ts gs s' ts' i ch g g' new hGst hsim hg hm ⟨hknown, hJ⟩
    refine ⟨?_, hmove s ts gs s' ts' i ch g g' new hGst hsim hg hm hknown hJ⟩
    rw [viewKnown, map_advance]
    exact hknown.move (viewKnown_getElem? hg) hm.fst

theorem allocated_of_fresh (h : Fresh s) : ∃ K, Allocated s K := by
  obtain ⟨-, hni, hsi, -⟩ := h
  refine ⟨∅, ?_, ?_, ?_, ?_, ?_, ?_, ?_, ?_⟩
  · intro n hn
    cases hn
  · intro c hc
    cases hc
  · intro e he
    cases he
  · intro name n hn
    simp [hni] at hn
  · intro name c hc
    simp [hsi] at hc
  · intro c hc
    cases hc
  · intro e he
    cases he
  · intro n hn
    cases hn

theorem refs_of_isCall (h : op.isCall = true) : op.refs = [] := by
  cases op <;> first | rfl | cases h

end Dirigent.ControlPlane
