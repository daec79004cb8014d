import Dirigent.ControlPlane.Allocation

/-!
# Placement on connected workers

`RegisterNode` starts `ConnectToWorker` and makes the node schedulable without waiting for it;
`NodeHeartbeat` and `CheckPeriodicallyWorkerNodes` make nodes schedulable, too. A placement policy
takes any schedulable node of `NIStorage`, and `CreateSandbox` calls through the node's connection.

* `exec_nodes` — what an action does to the nodes: connections are only made, and
  `SetSchedulability` is the only way to become schedulable.
* `placeWatch` — the protocol of the goroutine that places and creates a sandbox.
* **`placesConnected`** — schedulable nodes are connected, and so is the node that a policy
  returned, if each node that is made schedulable is connected at that time.
-/

namespace Dirigent.ControlPlane

open Prog Threads Protocol

/-- A new control plane, on any store and beside any data planes: it has no objects yet. -/
def New (s : State) : Prop :=
  Fresh s ∧ s.nodeCount = 0 ∧ s.serviceCount = 0 ∧ s.endpointCount = 0

/-- All interleavings of any number of calls on a new control plane. -/
def newControlPlanes : Lang Lock Act Op Act.Ans State Choice := controlPlaneFrom New Op.isCall

/-- Placement uses connected workers: the schedulable nodes of the storage are connected, and a
goroutine that is about to call `CreateSandbox` on the node that it was given has a connection. -/
structure PlacesConnected (s : System) : Prop where
  schedulable : ∀ name n, s.shared.data.niStorage.lookup name = some n →
    (s.shared.data.nodes n).schedulable = true → (s.shared.data.nodes n).connected = true
  createSandbox : ∀ t ∈ s.threads, ∀ c n k, t.op = .createSandbox c →
    t.code = .act (.isConnected n) k →
    (s.shared.data.nodes n).connected = true

/-- The node on which a step calls `SetSchedulability(true)`. -/
def nodeEnabled (st : Machine.Step System (Threads.Event Op Choice)) : Option ℕ :=
  match stepAct st with
  | some (.setSchedulability n true) => some n
  | _ => none

/-- The condition: a node that is not schedulable is made so only when it is connected. -/
def SchedulesConnected (st : Machine.Step System (Threads.Event Op Choice)) : Prop :=
  ∀ n ∈ nodeEnabled st, (st.src.shared.data.nodes n).schedulable = false →
    (st.src.shared.data.nodes n).connected = true

instance (st : Machine.Step System (Threads.Event Op Choice)) : Decidable (SchedulesConnected st) :=
  inferInstanceAs (Decidable (∀ n ∈ nodeEnabled st, _ → _))

/-! ## What an action does to the nodes -/

variable {s s' : State} {n : ℕ} {f : WorkerNode → WorkerNode} {a : Act} {r : a.Ans} {ch : Choice}
  {α : Type} {x : PlacePos} {l : Label Lock Act Op Act.Ans}

theorem modifyNode_nodes_self :
    (s.modifyNode n f).nodes n = f (s.nodes n) := Function.update_self _ _ _

theorem modifyNode_nodes_ne {n m : ℕ} (h : m ≠ n) :
    (s.modifyNode n f).nodes m = s.nodes m := Function.update_of_ne h _ _

/-- The node `wn'` is `wn` after the action `a` on it: it has the same description, it has not lost
its connection, and it is schedulable only if it was, or if `sched`. -/
structure NodeKept (wn wn' : WorkerNode) (sched : Prop) : Prop where
  info : wn'.info = wn.info
  connected : wn.connected = true → wn'.connected = true
  schedulable : wn'.schedulable = true → wn.schedulable = true ∨ sched

theorem NodeKept.refl (wn : WorkerNode) (p : Prop) : NodeKept wn wn p := ⟨rfl, id, .inl⟩

theorem nodeKept_modifyNode {p : ℕ → Prop} (hf : NodeKept (s.nodes n) (f (s.nodes n)) (p n))
    (m : ℕ) :
    NodeKept (s.nodes m) ((s.modifyNode n f).nodes m) (p m) := by
  by_cases hmn : m = n
  · subst hmn
    rw [modifyNode_nodes_self]
    exact hf
  · rw [modifyNode_nodes_ne hmn]
    exact .refl _ _

/-- **What an action does to the nodes**: it makes a new one, or it keeps all. -/
theorem exec_nodes (he : exec a s ch = some (r, s')) :
    (∃ info, a = .newNode info ∧ s'.nodeCount = s.nodeCount + 1 ∧ s'.nodes =
      Function.update s.nodes s.nodeCount { info := info, endpointMap := ∅ }) ∨
    (s'.nodeCount = s.nodeCount ∧
      ∀ n, NodeKept (s.nodes n) (s'.nodes n) (a = .setSchedulability n true)) := by
  cases a with
  | newNode info =>
    cases he
    exact .inl ⟨info, rfl, rfl, rfl⟩
  | setSchedulability n val =>
    cases he
    refine .inr ⟨rfl, nodeKept_modifyNode (p := fun m => Act.setSchedulability n val =
      .setSchedulability m true) ⟨rfl, id, fun hval => .inr ?_⟩⟩
    exact congrArg (Act.setSchedulability n) hval
  | connectToWorker n =>
    simp only [exec] at he
    split at he
    · cases he
      exact .inr ⟨rfl, fun m => .refl _ _⟩
    · cases he
      refine .inr ?_
      split
      · exact ⟨rfl, nodeKept_modifyNode (p := fun m => Act.connectToWorker n =
          .setSchedulability m true) ⟨rfl, fun _ => rfl, .inl⟩⟩
      · exact ⟨rfl, fun m => .refl _ _⟩
  | endpointMapSet n e name =>
    cases he
    exact .inr ⟨rfl, nodeKept_modifyNode (p := fun m => Act.endpointMapSet n e name =
      .setSchedulability m true) ⟨rfl, id, .inl⟩⟩
  | endpointMapRemove n e =>
    cases he
    exact .inr ⟨rfl, nodeKept_modifyNode (p := fun m => Act.endpointMapRemove n e =
      .setSchedulability m true) ⟨rfl, id, .inl⟩⟩
  | receive c =>
    obtain rfl | rfl := exec_receive_state he <;> exact .inr ⟨rfl, fun m => .refl _ _⟩
  | _ =>
    simp only [exec] at he
    repeat' split at he
    all_goals cases he
    all_goals exact .inr ⟨rfl, fun m => .refl _ _⟩

/-! ## The goroutine that places -/

inductive PlacePos
  | other
  /-- Before the policy has answered. -/
  | looking
  /-- With the node that it answered. -/
  | placed (n : ℕ)
  deriving DecidableEq

/-- The protocol of the goroutine of `doUpscaling`, which calls the node that the policy answered.
-/
def placeWatch : Protocol Lock Act Op Act.Ans PlacePos where
  start
    | .createSandbox _ => .looking
    | _ => .other
  next
    | .looking, .act .place (some n) => .placed n
    | x, _ => x
  guard
    | .looking, .act (.isConnected _) _ => False
    | .placed n, .act (.isConnected m) _ => m = n
    | _, _ => True
  ended _ := True

theorem follows_other (p : Code α) :
    placeWatch.Follows anyAnswer p (fun _ x => x = .other) .other := by
  refine follows_of_closed (S := fun x => x = PlacePos.other) ?_ (fun _ _ => trivial) rfl
  rintro _ l rfl
  exact ⟨trivial, rfl⟩

theorem follows_applyPlacementPolicy : placeWatch.Follows anyAnswer applyPlacementPolicy
    (fun node x => ∀ n, node = some n → x = .placed n) .looking := by
  refine Protocol.follows_bind.2 ⟨trivial, Protocol.follows_bind.2 ?_⟩
  refine Stays.bind (stays_withRLock ⟨trivial, rfl⟩ ⟨trivial, rfl⟩
    (stays_perform fun _ => ⟨trivial, rfl⟩)) fun count => ?_
  split
  · refine ⟨trivial, fun n hn => ?_⟩
    cases hn
  · intro node _
    cases node with
    | none => exact ⟨trivial, trivial, fun n hn => by cases hn⟩
    | some m => exact ⟨trivial, trivial, fun n hn => congrArg PlacePos.placed (Option.some.inj hn)⟩

theorem stays_placed_onWorker (n : ℕ) (p : Code α) (hp : placeWatch.Stays anyAnswer (.placed n) p) :
    placeWatch.Stays anyAnswer (.placed n) (onWorker n p) := by
  refine Stays.bind (stays_perform fun _ => ⟨rfl, rfl⟩) fun connected => ?_
  cases connected with
  | true => exact hp
  | false => exact trivial

theorem follows_createSandbox (c : ℕ) :
    placeWatch.Follows anyAnswer (createSandbox c) (fun _ => placeWatch.ended) .looking := by
  refine Protocol.follows_bind.2 (Follows.mono follows_applyPlacementPolicy ?_)
  intro node x hx
  cases node with
  | none => cases x <;> exact fun _ _ => ⟨trivial, trivial⟩
  | some n =>
    obtain rfl := hx n rfl
    refine Protocol.follows_perform.2 fun info _ => ⟨trivial, ?_⟩
    have hcall : placeWatch.Stays anyAnswer (.placed n) (call (.createSandbox n info)) :=
      stays_perform fun _ => ⟨trivial, rfl⟩
    refine (stays_placed_onWorker n _ hcall).bind fun resp => ?_
    cases resp with
    | none => exact fun _ _ => ⟨trivial, trivial⟩
    | some resp =>
      refine Protocol.follows_perform.2 fun wn _ => ⟨trivial, ?_⟩
      refine Protocol.follows_perform.2 fun persist _ => ⟨trivial, ?_⟩
      have hrest : placeWatch.Follows anyAnswer (do
          let e : ℕ ← call (.newEndpoint (endpointOf resp.1 resp.2 n wn))
          addEndpointToWNStruct wn.nodeID e info.name
          let seen : List ℕ ← call (.getEndpoints c)
          call (.setEndpoints c seen e)
          let infos : List DataPlane.EndpointInfo ← call (.prepareEndpointInfo [e])
          updateEndpoints c infos) (fun _ => placeWatch.ended) (.placed n) := by
        refine Protocol.follows_perform.2 fun e _ => ⟨trivial, ?_⟩
        refine (stays_addEndpointToWNStruct (fun _ => ⟨trivial, rfl⟩)
          (fun _ _ => ⟨trivial, rfl⟩) trivial (fun _ => ⟨trivial, rfl⟩)
            fun _ _ => ⟨trivial, rfl⟩).bind fun _ => ?_
        refine Protocol.follows_perform.2 fun seen _ => ⟨trivial, ?_⟩
        refine Protocol.follows_perform.2 fun _ _ => ⟨trivial, ?_⟩
        refine Protocol.follows_perform.2 fun infos _ => ⟨trivial, ?_⟩
        exact (stays_updateEndpoints (fun _ => ⟨trivial, rfl⟩) (fun _ => ⟨trivial, rfl⟩)
          (fun _ => ⟨trivial, rfl⟩) (fun _ _ _ _ => ⟨trivial, rfl⟩) infos).mono
          fun _ _ _ => trivial
      cases persist with
      | true => exact fun _ _ => ⟨trivial, hrest⟩
      | false => exact hrest

theorem follows_placeWatch (op : Op) : placeWatch.Follows anyAnswer (body op)
    (fun _ => placeWatch.ended) (placeWatch.start op) := by
  cases op with
  | createSandbox c => exact follows_createSandbox c
  | _ => exact Follows.mono (follows_other _) fun _ _ _ => trivial

/-! ## Runs -/

/-- Schedulable nodes are connected, and so are the nodes that goroutines have placed on. -/
structure Connected (s : State) (gs : List (Goroutine Op ((Op × List Ref) × PlacePos))) : Prop where
  schedulable : ∀ n < s.nodeCount, (s.nodes n).schedulable = true → (s.nodes n).connected = true
  placed : ∀ g ∈ gs, ∀ n, g.code.2 = .placed n → n < s.nodeCount ∧ (s.nodes n).connected = true
  watched : ∀ g ∈ gs, ∀ c, g.op = .createSandbox c → g.code.2 ≠ .other

theorem exec_connected (he : exec a s ch = some (r, s'))
    (h : n < s.nodeCount ∧ (s.nodes n).connected = true) :
    n < s'.nodeCount ∧ (s'.nodes n).connected = true := by
  obtain ⟨hn, hconnected⟩ := h
  rcases exec_nodes he with ⟨info, -, hcount, hnodes⟩ | ⟨hcount, hkept⟩
  · rw [hcount, hnodes, Function.update_of_ne hn.ne]
    exact ⟨Nat.lt_succ_of_lt hn, hconnected⟩
  · rw [hcount]
    exact ⟨hn, (hkept n).connected hconnected⟩

/-- An action under the condition keeps schedulable nodes connected. -/
theorem exec_schedulable (he : exec a s ch = some (r, s'))
    (h : ∀ n < s.nodeCount, (s.nodes n).schedulable = true → (s.nodes n).connected = true)
    (hcond : ∀ n < s.nodeCount, (s.nodes n).schedulable = false →
      (s'.nodes n).schedulable = true → (s.nodes n).connected = true) :
    ∀ n < s'.nodeCount, (s'.nodes n).schedulable = true → (s'.nodes n).connected = true := by
  intro n hn hschedulable
  by_cases hlt : n < s.nodeCount
  · refine (exec_connected he ⟨hlt, ?_⟩).2
    cases hbefore : (s.nodes n).schedulable with
    | true => exact h n hlt hbefore
    | false => exact hcond n hlt hbefore hschedulable
  · -- the new node is not schedulable
    rcases exec_nodes he with ⟨info, -, hcount, hnodes⟩ | ⟨hcount, -⟩
    · obtain rfl : n = s.nodeCount := by omega
      rw [hnodes, Function.update_self] at hschedulable
      cases hschedulable
    · omega

/-- A step under the condition makes only connected nodes schedulable. -/
theorem SchedulesConnected.connected {s s' : System} {event : Threads.Event Op Choice}
    (hcond : SchedulesConnected ⟨s, event, s'⟩)
    (hnext : newControlPlanes.threads.machine.next s event = some s') :
    ∀ n < s.shared.data.nodeCount, (s.shared.data.nodes n).schedulable = false →
      (s'.shared.data.nodes n).schedulable = true → (s.shared.data.nodes n).connected = true := by
  intro n hn hbefore hafter
  have hchanged :
      (s'.shared.data.nodes n).schedulable ≠ (s.shared.data.nodes n).schedulable := by
    rw [hbefore, hafter]
    decide
  rcases Threads.next_cases hnext with ⟨op, t, rfl, -, rfl⟩ |
    ⟨i, ch, t, d, t', new, rfl, ht, hstep, rfl⟩
  · exact absurd rfl hchanged
  rcases Lang.data_of_step hstep with hdata | ⟨a, k, r, hcode, hexec⟩
  · exact absurd (by rw [hdata]) hchanged
  rcases exec_nodes hexec with ⟨info, -, -, hnodes⟩ | ⟨-, hkept⟩
  · exact absurd (by rw [hnodes, Function.update_of_ne hn.ne]) hchanged
  rcases (hkept n).schedulable hafter with hold | rfl
  · exact absurd (hafter.trans hold.symm) hchanged
  · exact hcond n (by simp [nodeEnabled, stepAct, actOf, ht, hcode]) hbefore

theorem exec_place (he : exec .place s ch = some (some n, s')) :
    s' = s ∧ (∃ name, s.niStorage.lookup name = some n) ∧ (s.nodes n).schedulable = true := by
  simp only [exec] at he
  split at he
  · split_ifs at he with hn
    obtain ⟨hnode, rfl⟩ := Prod.mk.inj (Option.some.inj he)
    obtain rfl := Option.some.inj hnode
    exact ⟨rfl, mem_values_iff_lookup.1 hn.1, hn.2⟩
  · cases he

theorem placeWatch_next_placed (h : placeWatch.next x l = .placed n) :
    x = .placed n ∨ l = .act .place (some n) := by
  unfold placeWatch at h
  dsimp only at h
  split at h
  · cases h
    exact .inr rfl
  · exact .inl h

theorem placeWatch_next_other (h : placeWatch.next x l = .other) : x = .other := by
  unfold placeWatch at h
  dsimp only at h
  split at h
  · cases h
  · exact h

theorem placeWatch_start (op : Op) (n : ℕ) : placeWatch.start op ≠ .placed n := by
  cases op <;> exact fun h => by cases h

section

variable {s s' : Shared Lock State} {gs new : List (Goroutine Op ((Op × List Ref) × PlacePos))}
  {g g' : Goroutine Op ((Op × List Ref) × PlacePos)} {i : ℕ} {ch : Choice}

/-- **A move under the condition keeps the nodes connected.** -/
theorem Connected.move (h : Connected s.data gs) (hg : gs[i]? = some g)
    (hm : (known.prod placeWatch).Moves exec s i g ch s' g' new)
    (hcond : ∀ n < s.data.nodeCount, (s.data.nodes n).schedulable = false →
      (s'.data.nodes n).schedulable = true → (s.data.nodes n).connected = true)
    (hexists : ∀ name n, s.data.niStorage.lookup name = some n → n < s.data.nodeCount) :
    Connected s'.data (advance gs i g' new) := by
  -- what a goroutine has placed on before the move stays connected
  have hkept : ∀ n, (n < s.data.nodeCount ∧ (s.data.nodes n).connected = true) →
      n < s'.data.nodeCount ∧ (s'.data.nodes n).connected = true := by
    intro n hn
    rcases hm.data_cases with hdata | ⟨a, r, -, hexec⟩
    · rw [hdata]
      exact hn
    · exact exec_connected hexec hn
  refine ⟨?_, fun u hu n hn => ?_, fun u hu c hop hother => ?_⟩
  · rcases hm.data_cases with hdata | ⟨a, r, -, hexec⟩
    · rw [hdata]
      exact h.schedulable
    · exact exec_schedulable hexec h.schedulable hcond
  · rcases mem_of_mem_advance hu with rfl | hsame | hnew
    · rcases hm.code_cases with ⟨-, hcode, -⟩ | ⟨l, -, hcode, hdata⟩ | ⟨d, -, -, hcode⟩
      · rw [hcode] at hn
        exact hkept n (h.placed g (List.mem_of_getElem? hg) n hn)
      · rw [hcode] at hn
        rcases placeWatch_next_placed hn with hold | rfl
        · exact hkept n (h.placed g (List.mem_of_getElem? hg) n hold)
        · rcases hdata with ⟨-, hact⟩ | ⟨a, r, hl, hexec⟩
          · exact absurd rfl (hact _ _)
          · cases hl
            obtain ⟨hsame, ⟨name, hname⟩, hschedulable⟩ := exec_place hexec
            have hlt := hexists name n hname
            exact hkept n ⟨hlt, h.schedulable n hlt hschedulable⟩
      · rw [hcode] at hn
        exact absurd hn (placeWatch_start d n)
    · exact hkept n (h.placed u hsame n hn)
    · obtain ⟨-, cs, parent, d, -, -, rfl⟩ := hm.mem_new hnew
      exact absurd hn (placeWatch_start d n)
  · rcases mem_of_mem_advance hu with rfl | hsame | hnew
    · rcases hm.code_cases with ⟨-, hcode, -⟩ | ⟨l, -, hcode, -⟩ | ⟨d, -, -, hcode⟩
      · rw [hcode] at hop hother
        exact h.watched g (List.mem_of_getElem? hg) c hop hother
      · rw [hcode] at hop hother
        exact h.watched g (List.mem_of_getElem? hg) c hop (placeWatch_next_other hother)
      · rw [hcode] at hop hother
        obtain rfl : d = .createSandbox c := hop
        cases hother
    · exact h.watched u hsame c hop hother
    · obtain ⟨-, cs, parent, d, -, -, rfl⟩ := hm.mem_new hnew
      obtain rfl : d = .createSandbox c := hop
      cases hother

end

theorem connected_of_new (h : New s) : Connected s [] where
  schedulable := by
    intro n hn
    rw [h.2.1] at hn
    cases hn
  placed := by
    intro g hg
    cases hg
  watched := by
    intro g hg
    cases hg

theorem Connected.call {gs : List (Goroutine Op ((Op × List Ref) × PlacePos))} {op : Op}
    (h : Connected s gs) (hcall : op.isCall = true) :
    Connected s (gs ++ [(known.prod placeWatch).goroutine none op]) := by
  refine ⟨h.schedulable, ?_, forall_mem_concat h.watched fun c hop => ?_⟩
  · exact forall_mem_concat h.placed fun n hn => absurd hn (placeWatch_start op n)
  · obtain rfl : op = .createSandbox c := hop
    cases hcall

theorem allocated_of_new (h : New s) : ∃ K, Allocated s K := allocated_of_fresh h.1

/-- **Placement only uses connected workers**, in every interleaving in which a node is made
schedulable only when it is connected. -/
theorem placesConnected {tr : Trace} {s : System} (hrun : newControlPlanes.threads.machine.Run tr s)
    (hcond : ∀ st ∈ tr, SchedulesConnected st) : PlacesConnected s := by
  have hexists : ∀ {s : Shared Lock State} {gs : List (Goroutine Op ((Op × List Ref) × PlacePos))},
      KnownSound s (viewKnown gs) → ∀ name n, s.data.niStorage.lookup name = some n →
        n < s.data.nodeCount := by
    intro s gs hknown name n hname
    obtain ⟨K, hK, -⟩ := hknown.exists_allocated
    exact hK.node n (hK.niStorage name n hname).1
  obtain ⟨gs, hsim, hknown, hJ⟩ := exists_known_of_run (W := placeWatch)
    (G := fun st => SchedulesConnected st ∧
      newControlPlanes.threads.machine.next st.src st.event = some st.dst)
    (J := fun s gs => Connected s.data gs) follows_placeWatch
    (fun _ => allocated_of_new) (fun _ => refs_of_isCall)
    (fun s hs => connected_of_new hs.1) (fun s ts gs op s' _ hcall hJ => hJ.call hcall)
    (fun s ts gs s' ts' i ch g g' new hG _ hg hm hknown hJ =>
      hJ.move hg hm (hG.1.connected hG.2) (hexists hknown))
    hrun fun st hst => ⟨hcond st hst, hrun.next_of_mem hst⟩
  refine ⟨fun name n hname hschedulable => ?_, fun t ht c n k hop hcode => ?_⟩
  · exact hJ.schedulable n (hexists hknown name n hname) hschedulable
  · obtain ⟨i, hi⟩ := List.mem_iff_getElem?.1 ht
    obtain ⟨g, hg, hfollows, hgop, -, -⟩ := exists_of_forall₂ hsim hi
    rw [hcode] at hfollows
    have hguard := (hfollows true trivial).1.2
    have hmem := List.mem_of_getElem? hg
    cases hpos : g.code.2 with
    | other => exact absurd hpos (hJ.watched g hmem c (hgop.trans hop))
    | looking =>
      rw [hpos] at hguard
      exact hguard.elim
    | placed m =>
      rw [hpos] at hguard
      obtain rfl : n = m := hguard
      exact (hJ.placed g hmem n hpos).2

theorem init_newControlPlanes : newControlPlanes.threads.machine.init newSystem :=
  ⟨⟨⟨⟨rfl, rfl, rfl, rfl⟩, rfl, rfl, rfl⟩, rfl, rfl⟩, rfl⟩

/-- The node that the code calls next. -/
def workerCalled : Code Unit → Option ℕ
  | .act (.isConnected n) _ => some n
  | _ => none

/-- A node is registered, with its goroutine that connects to the worker at the end or not; then a
service is registered, scaled up, and its sandbox is placed on the node. -/
def upscaleOnNode (connect : List (Threads.Event Op Choice)) : List (Threads.Event Op Choice) :=
  List.flatten
    [[.start (.registerNode ⟨"w", "10.0.0.2", 10010, 8, 1024⟩)],
      List.replicate 7 (.run 0 .ok), connect, List.replicate 3 (.run 0 .ok),
      [.start (.registerService ⟨"f", "image", 1, 1⟩)], List.replicate 14 (.run 2 .ok),
      [.start (.nodeHeartbeat "w")], List.replicate 7 (.run 4 .ok),
      [.start (.onMetricsReceive "f")], List.replicate 7 (.run 5 .ok),
      [.run 6 (.desired 1), .run 6 .ok], List.replicate 7 (.run 3 .ok),
      List.replicate 4 (.run 7 .ok), [.run 7 (.node 0)], List.replicate 2 (.run 7 .ok)]

/-- The worker is connected before the node is made schedulable. -/
theorem placesConnected_of_connected : ∃ tr s, newControlPlanes.threads.machine.Run tr s ∧
    (∃ t ∈ s.threads, t.op = .createSandbox 0 ∧ workerCalled t.code = some 0) ∧
    PlacesConnected s := by
  obtain ⟨tr, s, hrun, hcalled, hcond⟩ : ∃ tr s, newControlPlanes.threads.machine.Run tr s ∧
      (∃ t ∈ s.threads, t.op = .createSandbox 0 ∧ workerCalled t.code = some 0) ∧
      ∀ st ∈ tr, SchedulesConnected st :=
    Machine.exists_run_of_play (upscaleOnNode (List.replicate 2 (.run 1 .ok)))
      init_newControlPlanes (by decide +kernel)
  exact ⟨tr, s, hrun, hcalled, placesConnected hrun hcond⟩

/-- The goroutine of `ConnectToWorker` has not run: the node is schedulable and has no connection,
and a sandbox has been placed on it. -/
theorem exists_placed_unconnected : ∃ tr s, newControlPlanes.threads.machine.Run tr s ∧
    s.shared.data.niStorage.lookup "w" = some 0 ∧ (s.shared.data.nodes 0).schedulable = true ∧
    (s.shared.data.nodes 0).connected = false ∧
    ∃ t ∈ s.threads, t.op = .createSandbox 0 ∧ workerCalled t.code = some 0 :=
  Machine.exists_run_of_play (upscaleOnNode []) init_newControlPlanes (by decide +kernel)

end Dirigent.ControlPlane
