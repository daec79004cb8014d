import Dirigent.ControlPlane.Placement

/-!
# Endpoints on nodes that are removed

`removeEndpointFromWNStruct` looks the node of an endpoint up by its name, three times, and calls a
method of what it finds. `HandleFailure` calls it for endpoints of a service's list, under the
service's `EndpointLock`; the goroutine for an evicted endpoint calls it after a drain that may take
long, under no lock. `DeregisterNode` takes endpoints out of the lists of the services that are
registered and removes the node. It does not know of evicted endpoints.

An endpoint is *housed* if `NIStorage` has a node with the name of its node.

* `removalWatch` — the protocol of the goroutines that add, evict and remove endpoints: which
  endpoints and names they are going to use.
* `Housing` — the endpoints that services list and that goroutines are going to use are housed.
* **`not_looksUpMissing`** — no lookup fails, if a node is removed only when nobody uses it.
* `exists_looksUpMissing` — a node is deregistered while an eviction drains.
-/

namespace Dirigent.ControlPlane

open Prog Threads Protocol

/-- `HandleFailure`, also from the monitoring, and the goroutine for a victim call
`removeEndpointFromWNStruct`. -/
def Op.removesEndpoints : Op → Bool
  | .handleFailure _ | .checkWorkerNodes | .deleteVictim _ => true
  | _ => false

/-- The name of the node that the code looks up without a check: it faults if there is none. -/
def uncheckedLookup : Code Unit → Option String
  | .act (.getNode name) k => if isHalt (k none) then some name else none
  | .act (.getNodeToUnlock name _) _ => some name
  | _ => none

/-- The step is a lookup in `removeEndpointFromWNStruct` of a node that is not in `NIStorage`. -/
def looksUpMissing (st : Machine.Step System (Threads.Event Op Choice)) : Bool :=
  match st.event with
  | .start _ => false
  | .run i _ => st.src.threads[i]?.any fun t => t.op.removesEndpoints &&
      (uncheckedLookup t.code).any fun name => (st.src.shared.data.niStorage.lookup name).isNone

/-! ## The condition -/

/-- The goroutine evicts an endpoint on a node with this name. -/
def Op.evictsOn (s : State) (name : String) : Op → Bool
  | .drainAndDelete _ es => es.any fun e => decide (s.nodeName e = some name)
  | .deleteVictim e => decide (s.nodeName e = some name)
  | _ => false

def Op.addsEndpoints : Op → Bool
  | .createSandbox _ | .reconstructEndpoint _ => true
  | _ => false

/-- The code is in `removeEndpointFromWNStruct`, with a lookup of `name` still to come. -/
def inRemoval (s : State) (name : String) : Code Unit → Bool
  | .act (.getEndpoint e) _ => decide (s.nodeName e = some name)
  | .act (.nodeInfo n) _ => decide ((s.nodes n).info.nodeID = name)
  | .act (.getNode name') _ => decide (name' = name)
  | .act (.getNodeToUnlock name' _) _ => decide (name' = name)
  | .sync .lock (.endpointMap n) _ => decide ((s.nodes n).info.nodeID = name)
  | _ => false

/-- The code is about to start an eviction on `name`. -/
def startsEviction (s : State) (name : String) : Code Unit → Bool
  | .go ops _ => ops.any fun op => op.evictsOn s name
  | _ => false

/-- The goroutine has to do with endpoints on a node of this name: it creates or reconstructs one,
it evicts one, or it is about to look the node up. -/
def usesNode (s : State) (name : String) (t : Goroutine Op (Code Unit)) : Bool :=
  decide (t.phase ≠ .finished) && (t.op.addsEndpoints || t.op.evictsOn s name ||
    startsEviction s name t.code || (t.op.removesEndpoints && inRemoval s name t.code))

/-- No service lists an endpoint on a node of this name, and no goroutine has to do with one. -/
def Unused (s : System) (name : String) : Prop :=
  (∀ c < s.shared.data.serviceCount, ∀ e ∈ (s.shared.data.services c).endpoints,
    s.shared.data.nodeName e ≠ some name) ∧
  ∀ t ∈ s.threads, usesNode s.shared.data name t = false

/-- The condition: a node that is removed from `NIStorage` is unused. -/
def RemovesUnused (st : Machine.Step System (Threads.Event Op Choice)) : Prop :=
  ∀ name ∈ st.src.shared.data.niStorage.keys, st.dst.shared.data.niStorage.lookup name = none →
    Unused st.src name

instance (s : System) (name : String) : Decidable (Unused s name) :=
  inferInstanceAs (Decidable (_ ∧ _))

instance (st : Machine.Step System (Threads.Event Op Choice)) : Decidable (RemovesUnused st) :=
  List.decidableBAll _ _

/-! ## The protocol -/

inductive RemovePos
  | other
  /-- Creates or reconstructs an endpoint. -/
  | adding
  /-- The loop of a service, and the loop with victims for which a goroutine has to be started. -/
  | round
  | evicted (es : List ℕ)
  /-- The goroutine of `doDownscaling`. -/
  | victims (es : List ℕ)
  /-- The goroutine for a victim, before and after it has read the victim's node. -/
  | victim (e : ℕ)
  | killing (e n : ℕ)
  /-- `HandleFailure`, and its way into `removeEndpointFromWNStruct`. -/
  | free
  | found (e : ℕ)
  | atNode (n : ℕ)
  /-- In `removeEndpointFromWNStruct`, before each of the lookups. -/
  | looking (name : String)
  | locking (name : String) (n : ℕ)
  | locked (name : String) (n : ℕ)
  | unlocking (name : String)
  | removing
  /-- A lookup has failed. -/
  | dead

/-- The protocol of the goroutines that add, evict and remove endpoints. -/
def removalWatch : Protocol Lock Act Op Act.Ans RemovePos where
  start
    | .createSandbox _ => .adding
    | .reconstructEndpoint _ => .adding
    | .scalingControllerLoop _ => .round
    | .takeLastValue _ _ _ => .round
    | .drainAndDelete _ es => .victims es
    | .deleteVictim e => .victim e
    | .handleFailure _ => .free
    | .checkWorkerNodes => .free
    | _ => .other
  next
    | .round, .act (.evict _ _) r => .evicted r
    | .evicted _, .go _ => .round
    | .victim e, .act (.getEndpoint _) r => r.node.elim (.victim e) (.killing e)
    | .killing e _, .act (.getEndpoint _) r => r.node.elim (.victim e) (.killing e)
    | .killing _ _, .act (.nodeInfo _) r => .looking r.nodeID
    | .free, .act (.searchEndpoint _ _) (some e) => .found e
    | .found _, .act (.getEndpoint _) r => r.node.elim .free .atNode
    | .atNode _, .act (.nodeInfo _) r => .looking r.nodeID
    | .looking name, .act (.getNode _) (some n) => .locking name n
    | .looking _, .act (.getNode _) none => .dead
    | .locking name n, .sync .lock _ => .locked name n
    | .locked name _, .act (.getNodeToUnlock _ _) (some _) => .unlocking name
    | .locked _ _, .act (.getNodeToUnlock _ _) none => .dead
    | .unlocking _, .act (.getNode _) (some _) => .removing
    | .unlocking _, .act (.getNode _) none => .dead
    | .removing, .sync .unlock _ => .free
    | x, _ => x
  guard
    | .other, _ => True
    | .adding, _ => True
    | .round, .go ops => ∀ c es, .drainAndDelete c es ∉ ops
    | .round, .join ops => ∀ c es, .drainAndDelete c es ∉ ops
    | .round, _ => True
    | .evicted es, l => ∃ c, l = .go [.drainAndDelete c es]
    | .victims _, .go _ => False
    | .victims es, .join ops => ∀ e, .deleteVictim e ∈ ops → e ∈ es
    | .victims _, _ => True
    | .victim e, l => ∃ r, l = .act (.getEndpoint e) r
    | .killing e _, .act (.getEndpoint e') _ => e' = e
    | .killing _ n, .act (.nodeInfo n') _ => n' = n
    | .killing _ _, .act (.isConnected _) _ => True
    | .killing _ _, .act (.deleteSandbox _ _ _) _ => True
    | .free, .act (.getEndpoint _) _ => False
    | .free, .act (.getNodeToUnlock _ _) _ => False
    | .free, _ => True
    | .found e, l => ∃ r, l = .act (.getEndpoint e) r
    | .atNode n, l => ∃ r, l = .act (.nodeInfo n) r
    | .looking name, l => ∃ r, l = .act (.getNode name) r
    | .locking _ n, l => l = .sync .lock (.endpointMap n)
    | .locked name n, l => ∃ r, l = .act (.getNodeToUnlock name n) r
    | .unlocking name, l => ∃ r, l = .act (.getNode name) r
    | .removing, .act (.endpointMapRemove _ _) _ => True
    | .removing, .sync .unlock _ => True
    | _, _ => False
  ended
    | .other | .adding | .round | .victims _ | .victim _ | .free => True
    | _ => False
  halts
    | .other | .adding | .round | .victims _ | .killing _ _ | .dead => True
    | _ => False

variable {a : Act} {α : Type} {p : Code Unit} {name : String} {e c : ℕ} {x : RemovePos}
  {s s' : State} {r : a.Ans} {ch : Choice} {op : Op} {es : List ℕ} {t : Goroutine Op (Code Unit)}
  {knows : List Ref}

/-! ### Those who remove -/

theorem follows_lookups (e : ℕ) : removalWatch.Follows anyAnswer (do
    let node : Option ℕ ← call (.getNode name)
    match node with
    | none => .halt
    | some n =>
      lock (.endpointMap n)
      let deferred : Option ℕ ← call (.getNodeToUnlock name n)
      match deferred with
      | none => .halt
      | some d =>
        let node : Option ℕ ← call (.getNode name)
        match node with
        | none => .halt
        | some m =>
          call (.endpointMapRemove m e)
          unlock (.endpointMap d) : Code Unit) (fun _ x => x = .free) (.looking name) := by
  refine Protocol.follows_perform.2 fun node _ => ⟨⟨node, rfl⟩, ?_⟩
  cases node with
  | none => exact trivial
  | some n =>
    refine ⟨rfl, Protocol.follows_perform.2 fun deferred _ => ⟨⟨deferred, rfl⟩, ?_⟩⟩
    cases deferred with
    | none => exact trivial
    | some d =>
      refine Protocol.follows_perform.2 fun node _ => ⟨⟨node, rfl⟩, ?_⟩
      cases node with
      | none => exact trivial
      | some m => exact fun _ _ => ⟨trivial, trivial, rfl⟩

/-- `HandleFailure` calls it with an endpoint that it has found. -/
theorem follows_removeEndpointFromWNStruct (e : ℕ) :
    removalWatch.Follows anyAnswer (removeEndpointFromWNStruct e) (fun _ x => x = .free)
      (.found e) := by
  refine Protocol.follows_perform.2 fun endpoint _ => ⟨⟨endpoint, rfl⟩, ?_⟩
  cases hnode : endpoint.node with
  | none =>
    change Option.elim endpoint.node _ _ = _
    rw [hnode]
    rfl
  | some wn =>
    have hpos : removalWatch.next (.found e) (.act (.getEndpoint e) endpoint) = .atNode wn := by
      change Option.elim endpoint.node _ _ = _
      rw [hnode]
      rfl
    rw [hpos]
    exact Protocol.follows_perform.2 fun info _ => ⟨⟨info, rfl⟩, follows_lookups e⟩

/-- The position after the node of a victim is read. -/
theorem next_getEndpoint_victim (endpoint : Endpoint) (hx : x = .victim e ∨ ∃ n, x = .killing e n) :
    removalWatch.guard x (.act (.getEndpoint e) endpoint) ∧
      removalWatch.next x (.act (.getEndpoint e) endpoint) =
        endpoint.node.elim (.victim e) (.killing e) := by
  rcases hx with rfl | ⟨n, rfl⟩
  · exact ⟨⟨endpoint, rfl⟩, rfl⟩
  · exact ⟨rfl, rfl⟩

theorem follows_deleteSandbox (e : ℕ) : removalWatch.Follows anyAnswer (deleteSandbox e)
    (fun _ x => x = .victim e ∨ ∃ n, x = .killing e n) (.victim e) := by
  refine Protocol.follows_perform.2 fun endpoint _ => ?_
  obtain ⟨hguard, hnext⟩ := next_getEndpoint_victim endpoint (.inl (rfl : RemovePos.victim e = _))
  refine ⟨hguard, ?_⟩
  rw [hnext]
  cases endpoint.node with
  | none => exact .inl rfl
  | some n =>
    refine Protocol.follows_perform.2 fun connected _ => ⟨trivial, ?_⟩
    cases connected with
    | true => exact fun _ _ => ⟨trivial, .inr ⟨n, rfl⟩⟩
    | false => exact trivial

theorem follows_deleteVictim (e : ℕ) :
    removalWatch.Follows anyAnswer (deleteVictim e) (fun _ => removalWatch.ended) (.victim e) := by
  refine Protocol.follows_bind.2 (Follows.mono (follows_deleteSandbox e) fun _ x hx => ?_)
  refine Protocol.follows_perform.2 fun endpoint _ => ?_
  obtain ⟨hguard, hnext⟩ := next_getEndpoint_victim endpoint hx
  refine ⟨hguard, ?_⟩
  rw [hnext]
  cases endpoint.node with
  | none => exact trivial
  | some n =>
    refine Protocol.follows_perform.2 fun info _ => ⟨rfl, ?_⟩
    refine Follows.mono (follows_lookups e) ?_
    rintro _ _ rfl
    exact trivial

theorem follows_drainAndDelete (c : ℕ) (es : List ℕ) :
    removalWatch.Follows anyAnswer (drainAndDelete c es) (fun _ => removalWatch.ended)
      (.victims es) := by
  have hdrain : removalWatch.Stays anyAnswer (.victims es) (drainSandbox c es) := by
    refine Stays.bind (stays_perform fun _ => ⟨trivial, rfl⟩) fun info => ?_
    refine Stays.bind (stays_perform fun _ => ⟨trivial, rfl⟩) fun infos => ?_
    refine Stays.bind (stays_withLock ⟨trivial, rfl⟩ ⟨trivial, rfl⟩
      (stays_perform fun _ => ⟨trivial, rfl⟩)) fun ips => ?_
    exact stays_forM fun ip _ =>
      Stays.bind (stays_perform fun _ => ⟨trivial, rfl⟩) fun _ => rfl
  refine hdrain.bind fun _ => ⟨fun e he => ?_, trivial⟩
  obtain ⟨e', he', heq⟩ := List.mem_map.1 he
  obtain rfl := Op.deleteVictim.inj heq
  exact he'

/-! ### The loop of a service -/

theorem stays_round_doDownscaling (c : ℕ) (actualScale desiredCount : ℤ) :
    removalWatch.Stays anyAnswer .round (doDownscaling c actualScale desiredCount) :=
  fun _ _ => ⟨trivial, ⟨c, rfl⟩, rfl⟩

theorem follows_round_scale (c : ℕ) (desired : ℤ) (running : Bool) :
    removalWatch.Follows anyAnswer (scale c desired running) (fun _ => removalWatch.ended)
      .round := by
  refine Protocol.follows_perform.2 fun actual _ => ⟨trivial, ?_⟩
  have hlocked : ∀ {p : Code Unit}, removalWatch.Stays anyAnswer .round p →
      removalWatch.Stays anyAnswer .round (withLock (.endpointLock c) p) :=
    fun hp => stays_withLock ⟨trivial, rfl⟩ ⟨trivial, rfl⟩ hp
  cases running with
  | false =>
    refine Follows.mono (hlocked (stays_round_doDownscaling c actual 0)) ?_
    rintro _ _ rfl
    exact trivial
  | true =>
    refine Stays.bind (hlocked ?_) fun _ => trivial
    split
    · refine ⟨fun c' es hmem => ?_, rfl⟩
      cases List.eq_of_mem_replicate hmem
    · refine Stays.bind (stays_perform fun _ => ⟨trivial, rfl⟩) fun disabled => ?_
      split
      · exact stays_round_doDownscaling c actual desired
      · exact rfl

/-! ### Failures -/

theorem stays_collectEndpoints (c : ℕ) (cids : List String) (toRemove : List ℕ) :
    removalWatch.Stays anyAnswer .free (collectEndpoints c cids toRemove) := by
  induction cids generalizing toRemove with
  | nil => exact rfl
  | cons cid cids ih =>
    refine Protocol.follows_perform.2 fun found _ => ⟨trivial, ?_⟩
    cases found with
    | none => exact ih toRemove
    | some e =>
      refine Protocol.follows_bind.2 (Follows.mono (follows_removeEndpointFromWNStruct e) ?_)
      rintro _ _ rfl
      exact ih _

theorem stays_handleFailure (failures : List Failure) :
    removalWatch.Stays anyAnswer .free (handleFailure failures) := by
  have hremove : ∀ c cids, removalWatch.Stays anyAnswer .free (removeEndpoints c cids) := by
    intro c cids
    refine stays_withLock ⟨trivial, rfl⟩ ⟨trivial, rfl⟩ ?_
    refine (stays_collectEndpoints c cids []).bind fun toRemove => ?_
    refine Stays.bind (stays_perform fun _ => ⟨trivial, rfl⟩) fun _ => ?_
    refine Stays.bind (stays_perform fun _ => ⟨trivial, rfl⟩) fun _ => ?_
    refine Stays.bind (stays_perform fun _ => ⟨trivial, rfl⟩) fun es => ?_
    refine Stays.bind (stays_perform fun _ => ⟨trivial, rfl⟩) fun infos => ?_
    exact stays_updateEndpoints (fun _ => ⟨trivial, rfl⟩) (fun _ => ⟨trivial, rfl⟩)
      (fun _ => ⟨trivial, rfl⟩) (fun _ _ _ _ => ⟨trivial, rfl⟩) infos
  have hround : ∀ failure, removalWatch.Stays anyAnswer .free (handleSandboxFailure failure) := by
    intro failure
    refine Stays.bind (stays_perform fun _ => ⟨trivial, rfl⟩) fun service => ?_
    cases service with
    | some c => exact hremove c _
    | none => exact rfl
  refine stays_forM fun failure _ => ?_
  cases failure.type with
  | sandboxFailure | workerNodeFailure => exact hround failure
  | sandboxDaemonFailure => exact rfl

theorem stays_failuresOf (n : ℕ) (cs : List ℕ) :
    removalWatch.Stays anyAnswer .free (failuresOf n cs) := by
  have hids : removalWatch.Stays anyAnswer .free (getServicesOnWorkerNode n) := by
    refine Stays.bind (stays_perform fun _ => ⟨trivial, rfl⟩) fun info => ?_
    refine Stays.bind (stays_withRLock ⟨trivial, rfl⟩ ⟨trivial, rfl⟩
      (stays_perform fun _ => ⟨trivial, rfl⟩)) fun node => ?_
    cases node with
    | none => exact rfl
    | some m =>
      exact stays_withRLock ⟨trivial, rfl⟩ ⟨trivial, rfl⟩
        (stays_perform fun _ => ⟨trivial, rfl⟩)
  induction cs with
  | nil => exact rfl
  | cons c cs ih =>
    refine Stays.bind (stays_perform fun _ => ⟨trivial, rfl⟩) fun info => ?_
    refine hids.bind fun ids => ih.bind fun rest => ?_
    split
    · exact rfl
    · exact rfl

theorem stays_checkNodes (ns : List ℕ) : removalWatch.Stays anyAnswer .free (checkNodes ns) := by
  induction ns with
  | nil => exact rfl
  | cons n ns ih =>
    refine Stays.bind (stays_perform fun _ => ⟨trivial, rfl⟩) fun _ => ?_
    refine Stays.bind (stays_perform fun _ => ⟨trivial, rfl⟩) fun missed => ?_
    cases missed with
    | false => exact ih
    | true =>
      refine Stays.bind (stays_withLock ⟨trivial, rfl⟩ ⟨trivial, rfl⟩
        (Stays.bind (stays_perform fun _ => ⟨trivial, rfl⟩)
          fun cs => stays_failuresOf n cs)) fun events => ?_
      refine Stays.bind (stays_perform fun _ => ⟨trivial, rfl⟩) fun _ => ?_
      exact ih.bind fun rest => rfl

theorem follows_removalWatch (op : Op) : removalWatch.Follows anyAnswer (body op)
    (fun _ => removalWatch.ended) (removalWatch.start op) := by
  have hstays : ∀ {p : Code Unit} {x : RemovePos}, removalWatch.ended x →
      removalWatch.Stays anyAnswer x p →
      removalWatch.Follows anyAnswer p (fun _ => removalWatch.ended) x := by
    intro p x hx hp
    refine Follows.mono hp ?_
    rintro _ _ rfl
    exact hx
  -- these two positions are left by no step
  have hopen : ∀ {p : Code Unit} {x : RemovePos}, x = .other ∨ x = .adding →
      removalWatch.Follows anyAnswer p (fun _ => removalWatch.ended) x := by
    intro p x hx
    refine Follows.mono (follows_of_closed (S := fun x => x = .other ∨ x = .adding) ?_ ?_ hx) ?_
    · rintro _ l (rfl | rfl)
      · exact ⟨trivial, .inl rfl⟩
      · exact ⟨trivial, .inr rfl⟩
    · rintro _ (rfl | rfl) <;> exact trivial
    · rintro _ _ (rfl | rfl) <;> exact trivial
  cases op with
  | createSandbox c | reconstructEndpoint e => exact hopen (.inr rfl)
  | scalingControllerLoop c => exact fun _ _ => ⟨trivial, trivial⟩
  | takeLastValue c desired running =>
    refine Protocol.follows_perform.2 fun value _ => ⟨trivial, ?_⟩
    cases value with
    | some r => exact trivial
    | none => exact follows_round_scale c desired running
  | drainAndDelete c es => exact follows_drainAndDelete c es
  | deleteVictim e => exact follows_deleteVictim e
  | handleFailure failures => exact hstays trivial (stays_handleFailure failures)
  | checkWorkerNodes =>
    refine hstays trivial (Stays.bind (stays_withLock ⟨trivial, rfl⟩
      ⟨trivial, rfl⟩ (Stays.bind (stays_perform fun _ => ⟨trivial, rfl⟩)
        fun ns => stays_checkNodes ns)) fun events => stays_handleFailure events)
  | _ => exact hopen (.inl rfl)

/-! ## Housed endpoints -/

/-- The node exists, and the storage has a node of its name. -/
def State.HousedNode (s : State) (n : ℕ) : Prop :=
  n < s.nodeCount ∧ (s.niStorage.lookup (s.nodes n).info.nodeID).isSome = true

/-- The endpoint exists, and its node is housed. -/
def State.Housed (s : State) (e : ℕ) : Prop :=
  e < s.endpointCount ∧ ∀ n, (s.endpoints e).node = some n → s.HousedNode n

def Ref.Housed (s : State) : Ref → Prop
  | .node n => s.HousedNode n
  | .endpoint e => s.Housed e
  | .service c => c < s.serviceCount

/-- The objects of `s` are the same in `s'`. -/
structure Later (s s' : State) : Prop where
  node : ∀ n < s.nodeCount, n < s'.nodeCount ∧ (s'.nodes n).info = (s.nodes n).info
  endpoint : ∀ e < s.endpointCount, e < s'.endpointCount ∧ s'.endpoints e = s.endpoints e
  service : s.serviceCount ≤ s'.serviceCount

theorem Later.refl (s : State) : Later s s := ⟨fun _ hn => ⟨hn, rfl⟩, fun _ he => ⟨he, rfl⟩, le_rfl⟩

theorem exec_later (he : exec a s ch = some (r, s')) : Later s s' := by
  refine ⟨fun n hn => ?_, fun e => exec_endpoints he, exec_serviceCount he⟩
  rcases exec_nodes he with ⟨info, -, hcount, hnodes⟩ | ⟨hcount, hkept⟩
  · rw [hcount, hnodes, Function.update_of_ne hn.ne]
    exact ⟨Nat.lt_succ_of_lt hn, rfl⟩
  · rw [hcount]
    exact ⟨hn, (hkept n).info⟩

section

variable {s s' : State} {n e : ℕ}

theorem State.HousedNode.later (h : s.HousedNode n) (hlater : Later s s')
    (hkept : (s'.niStorage.lookup (s.nodes n).info.nodeID).isSome = true) : s'.HousedNode n := by
  obtain ⟨hn, -⟩ := h
  obtain ⟨hn', hinfo⟩ := hlater.node n hn
  refine ⟨hn', ?_⟩
  rw [hinfo]
  exact hkept

theorem State.Housed.later (h : s.Housed e) (hlater : Later s s')
    (hkept : ∀ name, s.nodeName e = some name → (s.niStorage.lookup name).isSome = true →
      (s'.niStorage.lookup name).isSome = true) : s'.Housed e := by
  obtain ⟨he, hnode⟩ := h
  obtain ⟨he', heq⟩ := hlater.endpoint e he
  refine ⟨he', fun n hn => ?_⟩
  rw [heq] at hn
  have hhoused := hnode n hn
  refine hhoused.later hlater (hkept _ ?_ hhoused.2)
  rw [State.nodeName, hn]
  rfl

theorem Ref.Housed.later {v : Ref} (h : v.Housed s) (hlater : Later s s')
    (hkept : ∀ name, (s.niStorage.lookup name).isSome = true →
      (s'.niStorage.lookup name).isSome = true) : v.Housed s' := by
  cases v with
  | node n => exact State.HousedNode.later h hlater (hkept _ h.2)
  | endpoint e => exact State.Housed.later h hlater fun name _ => hkept name
  | service c => exact Nat.lt_of_lt_of_le h hlater.service

end

theorem exec_listed_new (he : exec a s ch = some (r, s')) (hc : c < s'.serviceCount)
    (hnew : s.serviceCount ≤ c) :
    (s'.services c).endpoints = [] := by
  cases a with
  | setService info b =>
    cases he
    obtain rfl : c = s.serviceCount := Nat.le_antisymm (Nat.le_of_lt_succ hc) hnew
    simp
  | receive c' =>
    obtain rfl | rfl := exec_receive_state he <;> exact absurd hc (Nat.not_lt.2 hnew)
  | _ =>
    simp only [exec] at he
    repeat' split at he
    all_goals cases he
    all_goals exact absurd hc (Nat.not_lt.2 hnew)

theorem exec_listed (he : exec a s ch = some (r, s')) (hc : c < s'.serviceCount)
    (hmem : e ∈ (s'.services c).endpoints) :
    (c < s.serviceCount ∧ e ∈ (s.services c).endpoints) ∨
      ∃ seen e', a = .setEndpoints c seen e' ∧ (e ∈ seen ∨ e = e') := by
  by_cases hlt : c < s.serviceCount
  swap
  · rw [exec_listed_new he hc (Nat.not_lt.1 hlt)] at hmem
    cases hmem
  by_cases htarget : a.target = some c
  swap
  · rw [exec_services_of_target_ne hlt htarget he] at hmem
    exact .inl ⟨hlt, hmem⟩
  cases a with
  | setEndpoints c' seen e' =>
    cases htarget
    cases he
    rw [modifyService_services_self] at hmem
    refine .inr ⟨seen, e', rfl, ?_⟩
    rcases List.mem_append.1 hmem with hmem | hmem
    · exact .inl hmem
    · exact .inr (List.mem_singleton.1 hmem)
  | excludeEndpoints c' es | evict c' n =>
    cases htarget
    cases he
    rw [modifyService_services_self] at hmem
    exact .inl ⟨hlt, mem_of_mem_excludeEndpoints hmem⟩
  | excludeEndpointsOnNode c' nodeID =>
    cases htarget
    simp only [exec] at he
    split at he
    · cases he
      rw [modifyService_services_self] at hmem
      exact .inl ⟨hlt, mem_of_mem_excludeEndpoints hmem⟩
    · cases he
      exact .inl ⟨hlt, hmem⟩
  | receive c' =>
    cases htarget
    obtain rfl | rfl := exec_receive_state he
    · exact .inl ⟨hlt, hmem⟩
    · rw [modifyService_services_self] at hmem
      exact .inl ⟨hlt, hmem⟩
  | _ =>
    cases htarget
    all_goals simp only [exec] at he
    all_goals repeat' split at he
    all_goals cases he
    all_goals
      first
      | exact .inl ⟨hlt, hmem⟩
      | (rw [modifyService_services_self] at hmem; exact .inl ⟨hlt, hmem⟩)

/-! ## What the positions say -/

/-- What a goroutine at the position is going to use is housed. -/
def RemovePos.Sound (s : State) (knows : List Ref) : RemovePos → Prop
  | .adding => ∀ v ∈ knows, v.Housed s
  | .evicted es | .victims es => ∀ e ∈ es, s.Housed e
  | .victim e | .found e => s.Housed e
  | .killing e n => s.Housed e ∧ (s.endpoints e).node = some n
  | .atNode n => s.HousedNode n
  | .looking name | .locked name _ | .unlocking name => (s.niStorage.lookup name).isSome = true
  | .locking name n => (s.niStorage.lookup name).isSome = true ∧ n < s.nodeCount ∧
      (s.nodes n).info.nodeID = name
  | _ => True

/-- The positions of `HandleFailure` and of `removeEndpointFromWNStruct`. -/
def RemovePos.isRemoval : RemovePos → Bool
  | .free | .found _ | .atNode _ | .looking _ | .locking _ _ | .locked _ _ | .unlocking _
  | .removing | .dead => true
  | _ => false

/-- The positions of each kind of goroutine. -/
def RemovePos.Fits (x : RemovePos) : Op → Prop
  | .createSandbox _ => x = .adding
  | .reconstructEndpoint _ => x = .adding
  | .scalingControllerLoop _ => x = .round ∨ ∃ es, x = .evicted es
  | .takeLastValue _ _ _ => x = .round ∨ ∃ es, x = .evicted es
  | .drainAndDelete _ es => x = .victims es
  | .deleteVictim e => x = .victim e ∨ (∃ n, x = .killing e n) ∨ x.isRemoval = true
  | .handleFailure _ => x.isRemoval = true
  | .checkWorkerNodes => x.isRemoval = true
  | _ => x = .other

theorem RemovePos.fits_start (op : Op) : (removalWatch.start op).Fits op := by
  cases op with
  | scalingControllerLoop c | takeLastValue c desired running | deleteVictim e => exact .inl rfl
  | _ => rfl

theorem isRemoval_next (h : x.isRemoval = true) (l : Label Lock Act Op Act.Ans) :
    (removalWatch.next x l).isRemoval = true := by
  cases x with
  | found e =>
    cases l with
    | act a r =>
      cases a with
      | getEndpoint e' =>
        change (r.node.elim RemovePos.free RemovePos.atNode).isRemoval = true
        cases r.node <;> rfl
      | _ => rfl
    | _ => rfl
  | other | adding | round | evicted es | victims es | victim e | killing e n => cases h
  | dead => rfl
  | _ =>
    unfold removalWatch
    dsimp only
    split <;> first | rfl | contradiction

theorem RemovePos.fits_next (h : x.Fits op) (l : Label Lock Act Op Act.Ans) :
    (removalWatch.next x l).Fits op := by
  -- the loop goes to its victims and back
  have hround : (x = .round ∨ ∃ es, x = .evicted es) →
      (removalWatch.next x l = .round ∨ ∃ es, removalWatch.next x l = .evicted es) := by
    rintro (rfl | ⟨es, rfl⟩)
    · cases l with
      | act a r =>
        cases a with
        | evict c n => exact .inr ⟨r, rfl⟩
        | _ => exact .inl rfl
      | _ => exact .inl rfl
    · cases l with
      | go ops => exact .inl rfl
      | _ => exact .inr ⟨es, rfl⟩
  cases op with
  | scalingControllerLoop c | takeLastValue c desired running => exact hround h
  | handleFailure failures | checkWorkerNodes => exact isRemoval_next h l
  | deleteVictim e =>
    have hread : ∀ endpoint : Endpoint,
        (endpoint.node.elim (RemovePos.victim e) (RemovePos.killing e)).Fits (.deleteVictim e) := by
      intro endpoint
      cases endpoint.node with
      | none => exact .inl rfl
      | some n => exact .inr (.inl ⟨n, rfl⟩)
    rcases h with rfl | ⟨n, rfl⟩ | h
    · cases l with
      | act a r =>
        cases a with
        | getEndpoint e' => exact hread r
        | _ => exact .inl rfl
      | _ => exact .inl rfl
    · cases l with
      | act a r =>
        cases a with
        | getEndpoint e' => exact hread r
        | nodeInfo n' => exact .inr (.inr rfl)
        | _ => exact .inr (.inl ⟨n, rfl⟩)
      | _ => exact .inr (.inl ⟨n, rfl⟩)
    · exact .inr (.inr (isRemoval_next h l))
  | _ => cases h; rfl

theorem nonempty_ans (a : Act) : Nonempty a.Ans := by
  have hnode : Nonempty NodeInfo := ⟨⟨"", "", 0, 0, 0⟩⟩
  have hservice : Nonempty ServiceInfo := ⟨⟨"", "", 0, 0⟩⟩
  have hendpoint : Nonempty Endpoint := ⟨⟨"", "", none, 0⟩⟩
  cases a <;> exact inferInstance

/-- Where the protocol admits one action only, the code is at that action. -/
theorem code_of_guard (h : removalWatch.Follows anyAnswer p (fun _ => removalWatch.ended) x)
    (hguard : ∀ l, removalWatch.guard x l → ∃ r, l = .act a r) (hended : ¬ removalWatch.ended x)
    (hhalts : ¬ removalWatch.halts x) : ∃ k, p = .act a k := by
  cases p with
  | ret v => exact absurd h hended
  | halt => exact absurd h hhalts
  | act b k =>
    obtain ⟨r⟩ := nonempty_ans b
    obtain ⟨r', hr'⟩ := hguard _ (h r trivial).1
    cases hr'
    exact ⟨k, rfl⟩
  | sync o l k | go ops k | join ops k =>
    obtain ⟨r, hr⟩ := hguard _ h.1
    cases hr
  | jump d =>
    obtain ⟨r, hr⟩ := hguard _ h
    cases hr

theorem code_of_locking {n : ℕ}
    (h : removalWatch.Follows anyAnswer p (fun _ => removalWatch.ended) (.locking name n)) :
    ∃ k, p = .sync .lock (.endpointMap n) k := by
  cases p with
  | ret v | halt => exact h.elim
  | act b k =>
    obtain ⟨r⟩ := nonempty_ans b
    cases (h r trivial).1
  | sync o l k =>
    cases h.1
    exact ⟨k, rfl⟩
  | go ops k | join ops k => cases h.1
  | jump d => cases h

theorem code_of_evicted
    (h : removalWatch.Follows anyAnswer p (fun _ => removalWatch.ended) (.evicted es)) :
    ∃ c k, p = .go [.drainAndDelete c es] k := by
  cases p with
  | ret v | halt => exact h.elim
  | act b k =>
    obtain ⟨r⟩ := nonempty_ans b
    obtain ⟨c, hc⟩ := (h r trivial).1
    cases hc
  | sync o l k | join ops k =>
    obtain ⟨c, hc⟩ := h.1
    cases hc
  | go ops k =>
    obtain ⟨c, hc⟩ := h.1
    cases hc
    exact ⟨c, k, rfl⟩
  | jump d =>
    obtain ⟨c, hc⟩ := h
    cases hc

theorem removesEndpoints_of_fits (h : x.Fits op) (hx : x.isRemoval = true) :
    op.removesEndpoints = true := by
  cases op with
  | handleFailure failures | checkWorkerNodes | deleteVictim e => rfl
  | scalingControllerLoop c | takeLastValue c desired running =>
    rcases h with rfl | ⟨es, rfl⟩ <;> cases hx
  | _ => cases h; cases hx

theorem addsEndpoints_of_fits (h : RemovePos.adding.Fits op) : op.addsEndpoints = true := by
  cases op <;> simp_all [RemovePos.Fits, RemovePos.isRemoval, Op.addsEndpoints]

theorem drainAndDelete_of_fits (h : (RemovePos.victims es).Fits op) :
    ∃ c, op = .drainAndDelete c es := by
  cases op <;> simp_all [RemovePos.Fits, RemovePos.isRemoval]

theorem deleteVictim_of_fits (h : x.Fits op) (hx : x = .victim e ∨ ∃ n, x = .killing e n) :
    op = .deleteVictim e := by
  rcases hx with rfl | ⟨n, rfl⟩ <;> cases op <;> simp_all [RemovePos.Fits, RemovePos.isRemoval]

/-- **What a goroutine is going to use stays housed**, if no node that it uses is removed. -/
theorem RemovePos.Sound.later (h : x.Sound s knows) (hlater : Later s s') (hfits : x.Fits t.op)
    (hfollows : removalWatch.Follows anyAnswer t.code (fun _ => removalWatch.ended) x)
    (hphase : t.phase ≠ .finished)
    (hlost : ∀ name, (s.niStorage.lookup name).isSome = true → s'.niStorage.lookup name = none →
      usesNode s name t = false) : x.Sound s' knows := by
  have hkept : ∀ name, (s.niStorage.lookup name).isSome = true → usesNode s name t = true →
      (s'.niStorage.lookup name).isSome = true := by
    intro name hname huses
    by_contra hnone
    rw [hlost name hname (by simpa using hnone)] at huses
    cases huses
  -- a goroutine at one of the lookups uses the node of that name
  have hremoval : ∀ name, x.isRemoval = true → (s.niStorage.lookup name).isSome = true →
      inRemoval s name t.code = true → (s'.niStorage.lookup name).isSome = true :=
    fun name hx hname hcode =>
      hkept name hname (by simp [usesNode, hphase, removesEndpoints_of_fits hfits hx, hcode])
  -- a goroutine that evicts an endpoint uses its node
  have hevicts : ∀ {e : ℕ}, s.Housed e →
      (∀ name, s.nodeName e = some name → t.op.evictsOn s name = true) → s'.Housed e :=
    fun he hop => he.later hlater fun name hname hsome =>
      hkept name hsome (by simp [usesNode, hphase, hop name hname])
  cases x with
  | adding =>
    have hop := addsEndpoints_of_fits hfits
    exact fun v hv => (h v hv).later hlater fun name hname =>
      hkept name hname (by simp [usesNode, hphase, hop])
  | evicted es =>
    obtain ⟨c, k, hcode⟩ := code_of_evicted hfollows
    refine fun e he => (h e he).later hlater fun name hname hsome => hkept name hsome ?_
    have hstarts : startsEviction s name t.code = true := by
      simpa [hcode, startsEviction, Op.evictsOn] using ⟨e, he, hname⟩
    simp [usesNode, hphase, hstarts]
  | victims es =>
    obtain ⟨c, hop⟩ := drainAndDelete_of_fits hfits
    refine fun e he => hevicts (h e he) fun name hname => ?_
    simpa [hop, Op.evictsOn] using ⟨e, he, hname⟩
  | victim e =>
    have hop := deleteVictim_of_fits hfits (.inl rfl)
    exact hevicts h fun name hname => by simpa [hop, Op.evictsOn] using hname
  | killing e n =>
    have hop := deleteVictim_of_fits hfits (.inr ⟨n, rfl⟩)
    obtain ⟨hhoused, hnode⟩ := h
    refine ⟨hevicts hhoused fun name hname => by simpa [hop, Op.evictsOn] using hname, ?_⟩
    rwa [(hlater.endpoint e hhoused.1).2]
  | found e =>
    obtain ⟨k, hcode⟩ := code_of_guard (a := .getEndpoint e) hfollows (fun _ hl => hl) id id
    refine State.Housed.later h hlater fun name hname hsome => hremoval name rfl hsome ?_
    simpa [hcode, inRemoval] using hname
  | atNode n =>
    obtain ⟨k, hcode⟩ := code_of_guard (a := .nodeInfo n) hfollows (fun _ hl => hl) id id
    exact State.HousedNode.later h hlater (hremoval _ rfl h.2 (by simp [hcode, inRemoval]))
  | looking name | unlocking name =>
    obtain ⟨k, hcode⟩ := code_of_guard (a := .getNode name) hfollows (fun _ hl => hl) id id
    exact hremoval name rfl h (by simp [hcode, inRemoval])
  | locking name n =>
    obtain ⟨k, hcode⟩ := code_of_locking hfollows
    obtain ⟨hsome, hn, hname⟩ := h
    obtain ⟨hn', hinfo⟩ := hlater.node n hn
    exact ⟨hremoval name rfl hsome (by simpa [hcode, inRemoval] using hname), hn', by rwa [hinfo]⟩
  | locked name n =>
    obtain ⟨k, hcode⟩ :=
      code_of_guard (a := .getNodeToUnlock name n) hfollows (fun _ hl => hl) id id
    exact hremoval name rfl h (by simp [hcode, inRemoval])
  | _ => exact trivial

/-! ## A step of a goroutine -/

section

variable {s s' : State} {K : Set Ref} {knows : List Ref} {x : RemovePos}

theorem housedNode_of_lookup (hK : Allocated s K) {name : String} {n : ℕ}
    (h : s.niStorage.lookup name = some n) : s.HousedNode n := by
  obtain ⟨hn, hname⟩ := hK.niStorage name n h
  refine ⟨hK.node n hn, ?_⟩
  rw [hname, h]
  rfl

theorem gives_housed {a : Act} {r : a.Ans} {ch : Choice} (he : exec a s ch = some (r, s'))
    (hop : op.addsEndpoints = true) (hmay : op.may a = true) (hrefs : a.refs ⊆ knows)
    (hK : Allocated s K)
    (hlisted : ∀ c < s.serviceCount, ∀ e ∈ (s.services c).endpoints, s.Housed e)
    (hknows : ∀ v ∈ knows, v.Housed s) (hknows' : ∀ v ∈ knows, v.Housed s') :
    ∀ v ∈ a.gives r, v.Housed s' := by
  intro v hv
  cases a with
  | place =>
    simp only [Act.gives, List.mem_map, Option.mem_toList] at hv
    obtain ⟨n, rfl, rfl⟩ := hv
    obtain ⟨rfl, ⟨name, hname⟩, -⟩ := exec_place he
    exact housedNode_of_lookup hK hname
  | getNode name | getNodeToUnlock name locked =>
    simp only [Act.gives, List.mem_map, Option.mem_toList] at hv
    obtain ⟨n, rfl, rfl⟩ := hv
    obtain ⟨hname, rfl⟩ := Prod.mk.inj (Option.some.inj he)
    exact housedNode_of_lookup hK hname
  | nodes =>
    cases he
    obtain ⟨n, hn, rfl⟩ := List.mem_map.1 hv
    obtain ⟨name, hname⟩ := mem_walkValues.1 hn
    exact housedNode_of_lookup hK hname
  | services =>
    cases he
    obtain ⟨c, hc, rfl⟩ := List.mem_map.1 hv
    obtain ⟨name, hname⟩ := mem_walkValues.1 hc
    exact hK.service c (hK.siStorage name c hname).1
  | getEndpoint e =>
    cases he
    simp only [Act.gives, List.mem_map, Option.mem_toList] at hv
    obtain ⟨n, hn, rfl⟩ := hv
    exact (hknows (.endpoint e) (hrefs (List.mem_singleton_self _))).2 n hn
  | searchEndpoint c cid =>
    simp only [Act.gives, List.mem_map, Option.mem_toList] at hv
    obtain ⟨e, rfl, rfl⟩ := hv
    obtain ⟨hfound, rfl⟩ := Prod.mk.inj (Option.some.inj he)
    exact hlisted c (hknows (.service c) (hrefs (List.mem_singleton_self _))) e
      (List.mem_of_find?_eq_some hfound)
  | newEndpoint ep =>
    obtain rfl := List.mem_singleton.1 hv
    cases he
    refine ⟨Nat.lt_succ_self _, fun n hn => ?_⟩
    simp only [Function.update_self] at hn
    exact hknows' (.node n) (hrefs (by simp [Act.refs, hn]))
  | getEndpoints c =>
    cases he
    obtain ⟨e, hmem, rfl⟩ := List.mem_map.1 hv
    exact hlisted c (hknows (.service c) (hrefs (List.mem_singleton_self _))) e hmem
  | getService name =>
    simp only [Act.gives, List.mem_map, Option.mem_toList] at hv
    obtain ⟨c, rfl, rfl⟩ := hv
    obtain ⟨hname, rfl⟩ := Prod.mk.inj (Option.some.inj he)
    exact hK.service c (hK.siStorage name c hname).1
  | newNode info | evict c n => cases op <;> first | (cases hop; done) | cases hmay
  | _ => cases hv

/-- **An action at a position leads to a position that is sound.** -/
theorem sound_act {a : Act} {r : a.Ans} {ch : Choice} (he : exec a s ch = some (r, s'))
    (hguard : removalWatch.guard x (.act a r)) (hfits : x.Fits op) (hmay : op.may a = true)
    (hrefs : a.refs ⊆ knows) (hK : Allocated s K) (hmem : ∀ v ∈ knows, v ∈ K)
    (hlisted : ∀ c < s.serviceCount, ∀ e ∈ (s.services c).endpoints, s.Housed e)
    (h : x.Sound s knows) (h' : x.Sound s' knows) :
    (removalWatch.next x (.act a r)).Sound s' (a.gives r ++ knows) := by
  have hservice : ∀ c, .service c ∈ a.refs → c < s.serviceCount :=
    fun c hc => hK.service c (hmem _ (hrefs hc))
  cases x with
  | adding =>
    exact List.forall_mem_append.2
      ⟨gives_housed he (addsEndpoints_of_fits hfits) hmay hrefs hK hlisted h h', h'⟩
  | round =>
    cases a with
    | evict c n =>
      cases he
      intro e hevicted
      rcases mem_victims hevicted with hlist | hnil
      · exact hlisted c (hservice c (List.mem_singleton_self _)) e hlist
      · cases hnil
    | _ => exact trivial
  | evicted es =>
    obtain ⟨c, hc⟩ := hguard
    cases hc
  | victims es => exact h'
  | victim e =>
    obtain ⟨r', ⟨⟩⟩ := hguard
    cases he
    cases hnode : (s.endpoints e).node with
    | none | some n => simpa [removalWatch, hnode, RemovePos.Sound] using h
  | killing e n =>
    cases a with
    | getEndpoint e' =>
      obtain rfl : e' = e := hguard
      cases he
      simpa [removalWatch, h.2, RemovePos.Sound] using h.1
    | nodeInfo n' =>
      obtain rfl : n' = n := hguard
      cases he
      exact (h.1.2 n' h.2).2
    | isConnected n' | deleteSandbox n' id hostPort => exact h'
    | _ => exact hguard.elim
  | free =>
    cases a with
    | searchEndpoint c cid =>
      cases r with
      | none => exact trivial
      | some e =>
        obtain ⟨hfound, rfl⟩ := Prod.mk.inj (Option.some.inj he)
        exact hlisted c (hservice c (List.mem_singleton_self _)) e
          (List.mem_of_find?_eq_some hfound)
    | _ => exact trivial
  | found e =>
    obtain ⟨r', ⟨⟩⟩ := hguard
    cases he
    cases hnode : (s.endpoints e).node with
    | none => simp [removalWatch, hnode, RemovePos.Sound]
    | some n => simpa [removalWatch, hnode, RemovePos.Sound] using h.2 n hnode
  | atNode n =>
    obtain ⟨r', ⟨⟩⟩ := hguard
    cases he
    exact h.2
  | looking name =>
    obtain ⟨r', ⟨⟩⟩ := hguard
    cases r' with
    | none => exact trivial
    | some n =>
      obtain ⟨hname, rfl⟩ := Prod.mk.inj (Option.some.inj he)
      exact ⟨h, hK.node n (hK.niStorage name n hname).1, (hK.niStorage name n hname).2⟩
  | locking name n => cases hguard
  | locked name n =>
    obtain ⟨r', ⟨⟩⟩ := hguard
    cases r' with
    | none => exact trivial
    | some d => exact h'
  | unlocking name =>
    obtain ⟨r', ⟨⟩⟩ := hguard
    cases r' with
    | none | some m => exact trivial
  | removing | other | dead => exact trivial

end

/-! ## Runs -/

/-- The endpoints that services list and that goroutines are going to use are housed. -/
structure Housing (s : State) (gs : List (Goroutine Op ((Op × List Ref) × RemovePos))) : Prop where
  listed : ∀ c < s.serviceCount, ∀ e ∈ (s.services c).endpoints, s.Housed e
  fits : ∀ g ∈ gs, g.code.2.Fits g.op
  sound : ∀ g ∈ gs, g.phase ≠ .finished → g.code.2.Sound s g.code.1.2

section

variable {s s' : Shared Lock State} {gs new : List (Goroutine Op ((Op × List Ref) × RemovePos))}
  {g g' : Goroutine Op ((Op × List Ref) × RemovePos)} {i : ℕ} {ch : Choice}
  {ts : List (Goroutine Op (Code Unit))}

theorem later_of_moves (hm : (known.prod removalWatch).Moves exec s i g ch s' g' new) :
    Later s.data s'.data := by
  rcases hm.data_cases with hdata | ⟨a, r, -, hexec⟩
  · rw [hdata]
    exact .refl _
  · exact exec_later hexec

theorem Housing.sound_later (h : Housing s.data gs) (hlater : Later s.data s'.data)
    (hsim : List.Forall₂ ((known.prod removalWatch).Sim anyAnswer) gs ts)
    (hunused : ∀ name, (s.data.niStorage.lookup name).isSome = true →
      s'.data.niStorage.lookup name = none → Unused ⟨s, ts⟩ name)
    {j : ℕ} {u : Goroutine Op ((Op × List Ref) × RemovePos)} (hu : gs[j]? = some u)
    (hphase : u.phase ≠ .finished) : u.code.2.Sound s'.data u.code.1.2 := by
  have hflip : List.Forall₂ (fun t g => (known.prod removalWatch).Sim anyAnswer g t) ts gs :=
    hsim.flip
  obtain ⟨t, ht, hfollows, hop, -, hphase'⟩ := exists_of_forall₂ hflip hu
  have hmem := List.mem_of_getElem? hu
  refine (h.sound u hmem hphase).later hlater (hop ▸ h.fits u hmem) (Follows.snd hfollows)
    (hphase' ▸ hphase) fun name hname hlost => ?_
  exact (hunused name hname hlost).2 t (List.mem_of_getElem? ht)

variable {K : Set Ref} {knows : List Ref} {x : RemovePos} {l : Label Lock Act Op Act.Ans}

theorem sound_start {op d : Op} {ds : List Op} (hd : d ∈ ds) (hl : l = .go ds ∨ l = .join ds)
    (hguard : removalWatch.guard x l) (hstart : op.mayStart d = true) (hrefs : d.refs ⊆ knows)
    (hK : Allocated s.data K) (hmem : ∀ v ∈ knows, v ∈ K) (hfits : x.Fits op)
    (hsound : x.Sound s.data knows) : (removalWatch.start d).Sound s.data d.refs := by
  cases d with
  | createSandbox c =>
    intro v hv
    obtain rfl := List.mem_singleton.1 hv
    exact hK.service c (hmem _ (hrefs (List.mem_singleton_self _)))
  | reconstructEndpoint e =>
    intro v hv
    cases hv
  | drainAndDelete c es =>
    -- only a loop starts an eviction, and only for its victims
    have hpos : x = .round ∨ ∃ es, x = .evicted es := by
      cases op with
      | scalingControllerLoop c' | takeLastValue c' desired running => exact hfits
      | _ => cases hstart
    rcases hpos with rfl | ⟨es', rfl⟩
    · rcases hl with rfl | rfl <;> exact absurd hd (hguard c es)
    · obtain ⟨c', rfl⟩ := hguard
      rcases hl with hl | hl
      · cases hl
        cases List.mem_singleton.1 hd
        exact hsound
      · cases hl
  | deleteVictim e =>
    cases op with
    | drainAndDelete c es =>
      obtain rfl : x = .victims es := hfits
      rcases hl with rfl | rfl
      · exact hguard.elim
      · exact hsound e (hguard e hd)
    | _ => cases hstart
  | _ => exact trivial

theorem sound_of_not_act {σ : State} (hl : ∀ a r, l ≠ .act a r) (h : x.Sound σ knows) :
    (removalWatch.next x l).Sound σ knows := by
  cases l with
  | act a r => exact absurd rfl (hl a r)
  | go ops => cases x <;> first | exact h | exact trivial
  | join ops | jump d => cases x <;> exact h
  | sync o lock =>
    cases x with
    | locking name n => cases o <;> first | exact h.1 | exact h
    | removing => cases o <;> exact trivial
    | _ => cases o <;> exact h

/-- The goroutine that moves is at a sound position after the move. -/
theorem Housing.sound_mover (h : Housing s.data gs) (hg : gs[i]? = some g)
    (hm : (known.prod removalWatch).Moves exec s i g ch s' g' new)
    (hlater : g.code.2.Sound s'.data g.code.1.2) (hrun : g.code.1.1 = g.op)
    (hK : Allocated s.data K) (hmem : ∀ v ∈ g.code.1.2, v ∈ K) :
    g'.code.2.Sound s'.data g'.code.1.2 := by
  have hsound := h.sound g (List.mem_of_getElem? hg) hm.phase_ne
  rcases hm.code_cases with ⟨-, hcode, -⟩ | ⟨l, hguard, hcode, hdata⟩ | ⟨d, -, hguard, hcode⟩
  · rw [hcode]
    exact hlater
  · rw [hcode]
    rcases hdata with ⟨hdata, hl⟩ | ⟨a, r, rfl, hexec⟩
    · have hknown : known.next g.code.1 l = g.code.1 := by
        cases l with
        | act a r => exact absurd rfl (hl a r)
        | _ => rfl
      change (removalWatch.next g.code.2 l).Sound s'.data (known.next g.code.1 l).2
      rw [hknown, hdata]
      exact sound_of_not_act hl hsound
    · exact sound_act hexec hguard.2 (h.fits g (List.mem_of_getElem? hg)) (hrun ▸ hguard.1.1)
        hguard.1.2 hK hmem h.listed hsound hlater
  · rw [hcode]
    have hjump : g.code.1.1.mayJump d = true := hguard.1.1
    cases d with
    | scalingControllerLoop c | takeLastValue c desired running | scalingLoopRound c =>
      exact trivial
    | _ =>
      generalize g.code.1.1 = op at hjump
      cases op <;> cases hjump

/-- **A move that removes only unused nodes keeps the endpoints housed.** -/
theorem Housing.move (h : Housing s.data gs) (hg : gs[i]? = some g)
    (hm : (known.prod removalWatch).Moves exec s i g ch s' g' new)
    (hsim : List.Forall₂ ((known.prod removalWatch).Sim anyAnswer) gs ts)
    (hunused : ∀ name, (s.data.niStorage.lookup name).isSome = true →
      s'.data.niStorage.lookup name = none → Unused ⟨s, ts⟩ name)
    (hknown : KnownSound s (viewKnown gs)) : Housing s'.data (advance gs i g' new) := by
  have hlater := later_of_moves hm
  have hmemg := List.mem_of_getElem? hg
  obtain ⟨K, hK, hgs⟩ := hknown.exists_allocated
  obtain ⟨hrun, hknows, -⟩ := hgs g hmemg
  have hsound := h.sound g hmemg hm.phase_ne
  have hsound' := h.sound_later hlater hsim hunused hg hm.phase_ne
  refine ⟨fun c hc e he => ?_, forall_mem_advance ?_ h.fits fun u hu => ?_, fun u hu hphase => ?_⟩
  · rcases hm.data_cases with hdata | ⟨a, r, hguard, hexec⟩
    · rw [hdata] at hc he ⊢
      exact h.listed c hc e he
    · rcases exec_listed hexec hc he with ⟨hc, he⟩ | ⟨seen, e', rfl, hset⟩
      · refine (h.listed c hc e he).later hlater fun name hname hsome => ?_
        by_contra hnone
        exact (hunused name hsome (by simpa using hnone)).1 c hc e he hname
      · -- only a goroutine that adds endpoints sets the list, and what it knows is housed
        have hadds : g.code.2 = .adding := by
          have hmay : g.op.addsTo c = true := hrun ▸ hguard.1.1
          have hfits := h.fits g hmemg
          generalize g.op = op at hmay hfits
          cases op with
          | createSandbox c' | reconstructEndpoint e => exact hfits
          | _ => cases hmay
        rw [hadds] at hsound'
        rcases hset with hset | rfl
        · exact hsound' (.endpoint e) (hguard.1.2 (by simp [Act.refs, hset]))
        · exact hsound' (.endpoint e) (hguard.1.2 (by simp [Act.refs]))
  · rcases hm.code_cases with ⟨-, hcode, -⟩ | ⟨l, -, hcode, -⟩ | ⟨d, -, -, hcode⟩ <;> rw [hcode]
    · exact h.fits g hmemg
    · exact RemovePos.fits_next (h.fits g hmemg) l
    · exact RemovePos.fits_start d
  · obtain ⟨-, cs, parent, d, -, -, rfl⟩ := hm.mem_new hu
    exact RemovePos.fits_start d
  · rcases mem_advance hg hu with rfl | ⟨j, -, hj⟩ | hnew
    · exact h.sound_mover hg hm hsound' hrun hK hknows
    · exact h.sound_later hlater hsim hunused hj hphase
    · obtain ⟨hdata, ds, parent, d, hguard, hd, rfl⟩ := hm.mem_new hnew
      rw [hdata]
      have hfits := h.fits g hmemg
      rcases hguard with hguard | hguard <;> obtain ⟨hstart, hrefs⟩ := hguard.1 d hd
      · exact sound_start hd (.inl rfl) hguard.2 (hrun ▸ hstart) hrefs hK hknows hfits hsound
      · exact sound_start hd (.inr rfl) hguard.2 (hrun ▸ hstart) hrefs hK hknows hfits hsound

end

theorem housing_of_new (h : New s) : Housing s [] where
  listed := by simp [h.2.2.1]
  fits := List.forall_mem_nil _
  sound := List.forall_mem_nil _

theorem sound_call (hcall : op.isCall = true) :
    (removalWatch.start op).Sound s knows := by
  cases op <;> first | exact trivial | cases hcall

theorem Housing.call {gs : List (Goroutine Op ((Op × List Ref) × RemovePos))} (h : Housing s gs)
    (hcall : op.isCall = true) :
    Housing s (gs ++ [(known.prod removalWatch).goroutine none op]) :=
  ⟨h.listed, forall_mem_concat h.fits (RemovePos.fits_start op),
    forall_mem_concat h.sound fun _ => sound_call hcall⟩

theorem exists_housing_of_run {tr : Trace} {s : System}
    (hrun : newControlPlanes.threads.machine.Run tr s) (hcond : ∀ st ∈ tr, RemovesUnused st) :
    ∃ gs, List.Forall₂ ((known.prod removalWatch).Sim anyAnswer) gs s.threads ∧
      Housing s.shared.data gs := by
  obtain ⟨gs, hsim, -, hJ⟩ := exists_known_of_run (W := removalWatch) (G := RemovesUnused)
    (J := fun s gs => Housing s.data gs) follows_removalWatch (fun _ => allocated_of_new)
    (fun _ => refs_of_isCall) (fun s hs => housing_of_new hs.1)
    (fun s ts gs op s' _ hcall hJ => hJ.call hcall)
    (fun s ts gs s' ts' i ch g g' new hG hsim hg hm hknown hJ =>
      hJ.move hg hm hsim (fun name hname => hG name (AList.lookup_isSome.1 hname)) hknown)
    hrun hcond
  exact ⟨gs, hsim, hJ⟩

/-! ## The lookups -/

theorem exists_of_uncheckedLookup (h : uncheckedLookup p = some name) :
    (∃ k, p = .act (.getNode name) k ∧ k none = .halt) ∨
      ∃ n k, p = .act (.getNodeToUnlock name n) k := by
  cases p with
  | act a k =>
    cases a with
    | getNode name' =>
      simp only [uncheckedLookup] at h
      split at h
      next hhalt =>
        cases h
        refine .inl ⟨k, rfl, ?_⟩
        cases hk : k none with
        | halt => rfl
        | _ =>
          rw [hk] at hhalt
          cases hhalt
      next => cases h
    | getNodeToUnlock name' n =>
      cases h
      exact .inr ⟨n, k, rfl⟩
    | _ => cases h
  | _ => cases h

theorem RemovePos.Fits.cases (h : x.Fits op) (hop : op.removesEndpoints = true) :
    (∃ e, x = .victim e) ∨ (∃ e n, x = .killing e n) ∨ x.isRemoval = true := by
  cases op with
  | deleteVictim e =>
    rcases h with hx | ⟨n, hx⟩ | hx
    · exact .inl ⟨e, hx⟩
    · exact .inr (.inl ⟨e, n, hx⟩)
    · exact .inr (.inr hx)
  | handleFailure r | checkWorkerNodes => exact .inr (.inr h)
  | _ => cases hop

theorem isSome_of_uncheckedLookup
    (h : removalWatch.Follows anyAnswer p (fun _ => removalWatch.ended) x)
    (hlookup : uncheckedLookup p = some name)
    (hpos : (∃ e, x = .victim e) ∨ (∃ e n, x = .killing e n) ∨ x.isRemoval = true)
    (hsound : x.Sound s knows) : (s.niStorage.lookup name).isSome = true := by
  rcases exists_of_uncheckedLookup hlookup with ⟨k, rfl, hhalt⟩ | ⟨m, k, rfl⟩
  · obtain ⟨hguard, hnext⟩ := h none trivial
    rw [hhalt] at hnext
    rcases hpos with ⟨e, rfl⟩ | ⟨e, n, rfl⟩ | hx
    · obtain ⟨r, hr⟩ := hguard
      cases hr
    · exact hguard.elim
    · cases x with
      | looking name' | unlocking name' =>
        obtain ⟨r, hr⟩ := hguard
        cases hr
        exact hsound
      | found e | atNode n | locked name' n =>
        obtain ⟨r, hr⟩ := hguard
        cases hr
      | free => exact hnext.elim
      | locking name' n => cases hguard
      | removing | dead => exact hguard.elim
      | _ => cases hx
  · obtain ⟨hguard, -⟩ := h none trivial
    rcases hpos with ⟨e, rfl⟩ | ⟨e, n, rfl⟩ | hx
    · obtain ⟨r, hr⟩ := hguard
      cases hr
    · exact hguard.elim
    · cases x with
      | locked name' n =>
        obtain ⟨r, hr⟩ := hguard
        cases hr
        exact hsound
      | looking name' | unlocking name' | found e | atNode n =>
        obtain ⟨r, hr⟩ := hguard
        cases hr
      | locking name' n => cases hguard
      | free | removing | dead => exact hguard.elim
      | _ => cases hx

/-- The step is one of a goroutine that looks a node up without a check. -/
theorem exists_of_looksUpMissing {st : Machine.Step System (Threads.Event Op Choice)}
    (h : looksUpMissing st = true) : ∃ i ch t name, st.event = .run i ch ∧
      st.src.threads[i]? = some t ∧ t.op.removesEndpoints = true ∧
      uncheckedLookup t.code = some name ∧ st.src.shared.data.niStorage.lookup name = none := by
  obtain ⟨src, event, dst⟩ := st
  cases event with
  | start op => cases h
  | run i ch =>
    obtain ⟨t, ht, h⟩ := (Option.any_eq_true _ _).1 h
    obtain ⟨hop, h⟩ := Bool.and_eq_true_iff.1 h
    obtain ⟨name, hname, h⟩ := (Option.any_eq_true _ _).1 h
    exact ⟨i, ch, t, name, rfl, ht, hop, hname, Option.isNone_iff_eq_none.1 h⟩

/-- **`removeEndpointFromWNStruct` never looks up a node that is not in `NIStorage`**, in every
interleaving in which only unused nodes are removed. -/
theorem not_looksUpMissing {tr : Trace} {s : System}
    (hrun : newControlPlanes.threads.machine.Run tr s) (hcond : ∀ st ∈ tr, RemovesUnused st)
    {st : Machine.Step System (Threads.Event Op Choice)} (hst : st ∈ tr) :
    looksUpMissing st = false := by
  by_contra hmissing
  obtain ⟨i, ch, t, name, he, ht, hop, hlookup, hnone⟩ :=
    exists_of_looksUpMissing (by simpa using hmissing)
  obtain ⟨tr', hsuffix, hrun'⟩ := hrun.src hst
  obtain ⟨gs, hsim, hhousing⟩ :=
    exists_housing_of_run hrun' fun st hst => hcond st (hsuffix.subset hst)
  obtain ⟨g, hg, hfollows, hgop, -, hphase⟩ := exists_of_forall₂ hsim ht
  have hmem := List.mem_of_getElem? hg
  -- the goroutine does make its lookup
  have hnext := hrun.next_of_mem hst
  rw [he] at hnext
  obtain ⟨_, hstep⟩ := Threads.exists_step_of_next ht hnext
  have hready : t.phase = .ready := by
    rcases exists_of_uncheckedLookup hlookup with ⟨k, hcode, -⟩ | ⟨n, k, hcode⟩
    · exact (Lang.step_of_act hcode hstep).1
    · exact (Lang.step_of_act hcode hstep).1
  have hsound := hhousing.sound g hmem (by rw [hphase, hready]; intro hfinished; cases hfinished)
  have hfound := isSome_of_uncheckedLookup (Follows.snd hfollows) hlookup
    ((hhousing.fits g hmem).cases (hgop ▸ hop)) hsound
  rw [hnone] at hfound
  cases hfound

/-- A sandbox is created on the node `w` and evicted: the goroutine that drains it is started. -/
def evictOnNode : List (Threads.Event Op Choice) := List.flatten
  [upscaleOnNode (List.replicate 2 (.run 1 .ok)), [.run 7 .ok, .run 7 (.sandbox "sandbox" 8080)],
    List.replicate 19 (.run 7 .ok), List.replicate 3 (.run 3 .ok),
    [.run 6 (.desired 0)], List.replicate 4 (.run 6 .ok), List.replicate 11 (.run 3 .ok)]

/-- The node is deregistered when the eviction has ended. -/
theorem not_looksUpMissing_of_drained : ∃ tr s, newControlPlanes.threads.machine.Run tr s ∧
    (∃ st ∈ tr, ∃ t ∈ st.src.threads, t.op = .deleteVictim 0 ∧ uncheckedLookup t.code = some "w") ∧
    s.shared.data.niStorage.lookup "w" = none ∧ ∀ st ∈ tr, looksUpMissing st = false := by
  obtain ⟨tr, s, hrun, hlookup, hremoved, hcond⟩ :
      ∃ tr s, newControlPlanes.threads.machine.Run tr s ∧
      (∃ st ∈ tr, ∃ t ∈ st.src.threads, t.op = .deleteVictim 0 ∧
        uncheckedLookup t.code = some "w") ∧
      s.shared.data.niStorage.lookup "w" = none ∧ ∀ st ∈ tr, RemovesUnused st :=
    Machine.exists_run_of_play (List.flatten
      [evictOnNode, List.replicate 7 (.run 8 .ok), List.replicate 13 (.run 9 .ok),
        List.replicate 2 (.run 8 .ok),
        [.start (.deregisterNode "w")], List.replicate 16 (.run 10 .ok)])
      init_newControlPlanes (by decide +kernel)
  exact ⟨tr, s, hrun, hlookup, hremoved, fun st hst => not_looksUpMissing hrun hcond hst⟩

/-- The node is deregistered while the sandbox drains: the goroutine that deletes the sandbox does
not find the node. -/
theorem exists_looksUpMissing : ∃ tr s, newControlPlanes.threads.machine.Run tr s ∧
    ∃ st ∈ tr, looksUpMissing st = true :=
  Machine.exists_run_of_play (List.flatten
    [evictOnNode, [.start (.deregisterNode "w")], List.replicate 16 (.run 9 .ok),
      List.replicate 7 (.run 8 .ok), List.replicate 6 (.run 10 .ok)])
    init_newControlPlanes (by decide +kernel)

end Dirigent.ControlPlane
