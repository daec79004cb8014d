import Dirigent.ControlPlane.Allocation
import Dirigent.ControlPlane.LockDiscipline

/-!
# What the reconstruction of endpoints owes

`reconstructEndpointsState` asks every worker node in turn for the endpoints it runs, and starts a
goroutine for each of them, which looks up the node and the service and enters the endpoint into the
node's map and the service's list.

**Stages.** `Recovery` says how far a goroutine has come, and the protocol `recovering` which steps
it makes at each stage. All goroutines follow it (`follows_recovering`), as long as the registry
stays what it was (`registryAnswer`).

**The books (`Recovered`).** What is listed, or can still be listed, is owed to a service and to a
node until it has been entered (`Recovery.debt`). Every action keeps the books (`Recovered.act`) if
a list is stored as it was read, and so does everything else (`Recovered.passive`).
-/

namespace Dirigent.ControlPlane

open DataPlane (EndpointInfo)
open Prog Protocol Threads

/-! ## What the workers list -/

/-- What every worker node answers to `ListEndpoints`; `none` is an error. -/
abbrev Answers := ℕ → Option (List EndpointRecord)

/-- What the worker `n` lists. One without a connection is not asked. -/
def State.listedBy (s : State) (answers : Answers) (n : ℕ) : Option (List EndpointRecord) :=
  if (s.nodes n).connected then answers n else some []

/-- All that the workers list. -/
def State.allListed (s : State) (answers : Answers) : List EndpointRecord :=
  (s.niStorage.entries.map Sigma.snd).flatMap fun n => (s.listedBy answers n).getD []

/-- Where a listed endpoint belongs: its node, its service, and the endpoint. -/
def State.placeOf (s : State) (r : EndpointRecord) : Option (ℕ × ℕ × Endpoint) :=
  (s.niStorage.lookup r.nodeName).bind fun n => (s.siStorage.lookup r.serviceName).map fun c =>
    (n, c, endpointOf r.sandboxID r.hostPort n (s.nodes n).info)

/-- The entry for a listed endpoint in the list of the service `c`. -/
def State.entryOfService (s : State) (c : ℕ) (r : EndpointRecord) : Option Endpoint :=
  (s.placeOf r).bind fun p => if p.2.1 = c then some p.2.2 else none

/-- The entry for a listed endpoint in the map of the node `n`. -/
def State.entryOfNode (s : State) (n : ℕ) (r : EndpointRecord) : Option (Endpoint × String) :=
  (s.placeOf r).bind fun p => if p.1 = n then some (p.2.2, r.serviceName) else none

/-! ## What a goroutine owes -/

/-- The goroutine that asks the workers, with those it has not asked and what it has got; the
goroutine for a listed endpoint, with the endpoint it has made; an autoscaler; or any other
goroutine. -/
inductive Recovery
  | main
  | listing (todo : List ℕ) (got : List EndpointRecord)
  | failed (todo : List ℕ) (got : List EndpointRecord)
  | spawned
  | child (r : EndpointRecord)
  | made (r : EndpointRecord) (e : ℕ)
  | mapped (r : EndpointRecord) (e : ℕ)
  /-- Under the `EndpointLock` of the service, before and after it has read the list. -/
  | locked (r : EndpointRecord) (e : ℕ)
  | read (r : EndpointRecord) (e : ℕ) (seen : List ℕ)
  | done
  | auto
  | other

def Lock.isEndpointLock : Lock → Bool
  | .endpointLock _ => true
  | _ => false

/-- The actions that touch neither the registry nor endpoints. -/
def Act.isAmbient : Act → Bool
  | .getNode _ | .nodeInfo _ | .getService _ | .serviceInfo _ | .prepareEndpointInfo _ | .dataPlanes
  | .updateEndpointList _ _ _ | .addActualScale _ _ | .casAutoscaling _ | .makeStopCh _
  | .knativeScaling _ _ | .offer _ _ | .awaitTaken _ | .clearAutoscaling _ | .closeStopCh _
  | .dropStopCh _ | .selectTick _ => true
  | _ => false

namespace Recovery

variable (s₀ : State)

def may (x : Recovery) : Act → Prop
  | .nodes => x = .main
  | .listEndpoints n => ∃ todo got, x = .listing (n :: todo) got
  | .newEndpoint ep => ∃ r, x = .child r ∧ ∀ p, s₀.placeOf r = some p → ep = p.2.2
  | .endpointMapSet n e name => ∃ r c ep, x = .made r e ∧ s₀.placeOf r = some (n, c, ep) ∧
      name = r.serviceName
  | .getEndpoints c => (∃ r e n ep, x = .locked r e ∧ s₀.placeOf r = some (n, c, ep)) ∨ x = .done
  | .setEndpoints c seen e => ∃ r n ep, x = .read r e seen ∧ s₀.placeOf r = some (n, c, ep)
  | a => a.isAmbient = true ∧ (a.mayWait = true → x = .auto)

/-- The goroutine may take and give back locks. -/
def maySync : Recovery → Bool
  | .child _ | .made _ _ | .mapped _ _ | .done => true
  | _ => false

def afterAct (x : Recovery) : (a : Act) → a.Ans → Recovery
  | .nodes, ns => match x with
    | .main => .listing ns []
    | x => x
  | .listEndpoints _, list => match x, list with
    | .listing (_ :: todo) got, some es => .listing todo (got ++ es)
    | .listing todo got, none => .failed todo got
    | x, _ => x
  | .newEndpoint _, e => match x with
    | .child r => .made r e
    | x => x
  | .endpointMapSet _ _ _, _ => match x with
    | .made r e => .mapped r e
    | x => x
  | .getEndpoints _, seen => match x with
    | .locked r e => .read r e seen
    | x => x
  | .setEndpoints _ _ _, _ => match x with
    | .read _ _ _ => .done
    | x => x
  | _, _ => x

def after (x : Recovery) : Label Lock Act Op Act.Ans → Recovery
  | .act a r => x.afterAct a r
  | .sync .lock (.endpointLock _) => match x with
    | .mapped r e => .locked r e
    | x => x
  | .go _ => match x with
    | .listing [] _ => .spawned
    | x => x
  | _ => x

/-- The goroutine for an endpoint that belongs nowhere ends early. -/
def ends (x : Recovery) : Prop :=
  x = .spawned ∨ x = .done ∨ x = .auto ∨ x = .other ∨
    ∃ r, s₀.placeOf r = none ∧ (x = .child r ∨ ∃ e, x = .made r e)

end Recovery

/-- The goroutines of the reconstruction. -/
def recovering (s₀ : State) : Protocol Lock Act Op Act.Ans Recovery where
  start
    | .reconstructEndpointsState => .main
    | .reconstructEndpoint r => .child r
    | .scalingLoop _ | .scalingLoopRound _ => .auto
    | _ => .other
  next := Recovery.after
  guard x l := x = .other ∨ match l with
    | .act a _ => x.may s₀ a
    | .sync _ l => x.maySync = true ∧
      ∀ r e c, x = .mapped r e → l = .endpointLock c → ∃ n ep, s₀.placeOf r = some (n, c, ep)
    | .go cs => (∃ got, x = .listing [] got ∧ cs = got.map .reconstructEndpoint) ∨
      x = .done ∧ ∀ op ∈ cs, ∃ c, op = .scalingLoop c
    | .join _ => False
    | .jump op => x = .auto ∧ ∃ c, op = .scalingLoopRound c
  ended x := x.ends s₀
  halts x := x = .auto ∨ x = .other ∨ ∃ todo got, x = .failed todo got

/-- What the lookups answer, and the workers, if the registry is that of `s₀`. -/
def registryAnswer (s₀ : State) (answers : Answers) : (a : Act) → a.Ans → Prop
  | .nodes, ns => ns.Perm (s₀.niStorage.entries.map Sigma.snd)
  | .listEndpoints n, list => list = s₀.listedBy answers n
  | .getNode name, node => node = s₀.niStorage.lookup name
  | .getService name, service => service = s₀.siStorage.lookup name
  | .nodeInfo n, info => info = (s₀.nodes n).info
  | .serviceInfo c, info => info = (s₀.services c).info
  | .deleteDeployment _ _, ok => ok = true
  | .getNodeToUnlock _ locked, node => node = some locked
  | _, _ => True

section

variable {s₀ : State} {answers : Answers} {x : Recovery} {α : Type}

variable {a : Act} {l : Lock} {r : EndpointRecord} {n c : ℕ} {K : Set Ref} {ep : Endpoint}

theorem afterAct_ambient (ha : a.isAmbient = true) (r : a.Ans) : x.afterAct a r = x := by
  cases a <;> first | rfl | cases ha

theorem admits_ambient (ha : a.isAmbient = true) (hwait : a.mayWait = true → x = .auto)
    (r : a.Ans) : (recovering s₀).Admits x (.act a r) := by
  refine ⟨Or.inr ?_, afterAct_ambient ha r⟩
  cases a <;> first | exact ⟨ha, hwait⟩ | cases ha

theorem admits_quiet (ha : a.isAmbient = true) (hwait : a.mayWait = false) (r : a.Ans) :
    (recovering s₀).Admits x (.act a r) := admits_ambient ha (by simp [hwait]) r

theorem stays_quiet (ha : a.isAmbient = true) (hwait : a.mayWait = false) :
    (recovering s₀).Stays (registryAnswer s₀ answers) x (call a) :=
  stays_perform (admits_quiet ha hwait)

theorem admits_sync_unless {o : LockOp} (hx : x.maySync = true)
    (h : l.isEndpointLock = false ∨ ∀ r e, x ≠ .mapped r e) :
    (recovering s₀).Admits x (.sync o l) := by
  constructor
  · refine Or.inr ⟨hx, ?_⟩
    intro r e c hmapped hl
    rcases h with h | h
    · rw [hl] at h
      cases h
    · exact absurd hmapped (h r e)
  · show x.after (.sync o l) = x
    rcases h with h | h
    · cases l with
      | endpointLock c => cases h
      | _ => cases o <;> rfl
    · cases x with
      | mapped r e => exact absurd rfl (h r e)
      | _ => cases o <;> cases l <;> rfl

theorem follows_lookup (ha : a.isAmbient = true) (hwait : a.mayWait = false)
    (hx : x.maySync = true) (hl : l.isEndpointLock = false) :
    (recovering s₀).Follows (registryAnswer s₀ answers) (withRLock l (call a))
      (fun v y => registryAnswer s₀ answers a v ∧ y = x) x := by
  have hsync : ∀ o, (recovering s₀).Admits x (.sync o l) := fun o => admits_sync_unless hx (.inl hl)
  have hact : ∀ v, (recovering s₀).Admits x (.act a v) := admits_quiet ha hwait
  refine Protocol.follows_bind.2 ⟨(hsync .rlock).1, ?_⟩
  rw [(hsync .rlock).2]
  intro v hv
  refine ⟨(hact v).1, ?_⟩
  rw [(hact v).2]
  refine ⟨(hsync .runlock).1, hv, ?_⟩
  exact (hsync .runlock).2

theorem placeOf_eq (hn : s₀.niStorage.lookup r.nodeName = some n)
    (hc : s₀.siStorage.lookup r.serviceName = some c) :
    s₀.placeOf r = some (n, c, endpointOf r.sandboxID r.hostPort n (s₀.nodes n).info) := by
  simp [State.placeOf, hn, hc]

theorem placeOf_eq_none
    (h : s₀.niStorage.lookup r.nodeName = none ∨ s₀.siStorage.lookup r.serviceName = none) :
    s₀.placeOf r = none := by
  rcases h with h | h <;> simp [State.placeOf, h]

theorem stays_done_startAutoscaling (c : ℕ) :
    (recovering s₀).Stays (registryAnswer s₀ answers) .done (startAutoscaling c) := by
  refine (stays_quiet rfl rfl).bind fun swapped => ?_
  cases swapped with
  | false => exact rfl
  | true =>
    refine (stays_quiet rfl rfl).bind fun _ => ?_
    refine ⟨Or.inr (Or.inr ⟨rfl, ?_⟩), rfl⟩
    intro op hop
    exact ⟨c, List.mem_singleton.1 hop⟩

theorem follows_addEndpoint (hs₀ : Allocated s₀ K) (e : ℕ)
    (hn : s₀.niStorage.lookup r.nodeName = some n) (hplace : s₀.placeOf r = some (n, c, ep)) :
    (recovering s₀).Follows (registryAnswer s₀ answers)
      (addEndpointToWNStruct (s₀.nodes n).info.nodeID e r.serviceName)
      (fun _ y => y = .mapped r e) (.made r e) := by
  refine Protocol.follows_bind.2 ((follows_lookup rfl rfl rfl rfl).mono ?_)
  rintro node _ ⟨hnode, rfl⟩
  rw [show node = s₀.niStorage.lookup _ from hnode, (hs₀.niStorage _ n hn).2, hn]
  have hsync : ∀ o, (recovering s₀).Admits (.made r e) (.sync o (.endpointMap n)) :=
    fun o => admits_sync_unless rfl (.inl rfl)
  refine Protocol.follows_bind.2 ⟨(hsync .lock).1, ?_⟩
  rw [(hsync .lock).2]
  intro _ _
  refine ⟨Or.inr ⟨r, c, ep, rfl, hplace, rfl⟩, ?_⟩
  have hunlock : (recovering s₀).Admits (.mapped r e) (.sync .unlock (.endpointMap n)) :=
    admits_sync_unless rfl (.inl rfl)
  exact ⟨hunlock.1, hunlock.2⟩

theorem follows_append (e : ℕ) (hplace : s₀.placeOf r = some (n, c, ep)) :
    (recovering s₀).Follows (registryAnswer s₀ answers)
      (withLock (.endpointLock c) do
        let seen : List ℕ ← call (.getEndpoints c)
        call (.setEndpoints c seen e)
        let es : List ℕ ← call (.getEndpoints c)
        call (.prepareEndpointInfo es)) (fun _ y => y = .done) (.mapped r e) := by
  refine Protocol.follows_bind.2 ⟨Or.inr ⟨rfl, ?_⟩, ?_⟩
  · intro r' e' c' hmapped hl
    cases hmapped
    cases hl
    exact ⟨n, ep, hplace⟩
  · intro seen _
    refine ⟨Or.inr (Or.inl ⟨r, e, n, ep, rfl, hplace⟩), ?_⟩
    intro _ _
    refine ⟨Or.inr ⟨r, n, ep, rfl, hplace⟩, ?_⟩
    intro es _
    refine ⟨Or.inr (Or.inr rfl), ?_⟩
    intro infos _
    refine ⟨Or.inr ⟨rfl, nofun⟩, ?_⟩
    have hunlock : (recovering s₀).Admits .done (.sync .unlock (.endpointLock c)) :=
      admits_sync_unless rfl (.inr nofun)
    exact ⟨hunlock.1, hunlock.2⟩

/-- **The goroutine for a listed endpoint** enters it where it belongs. -/
theorem recovering_reconstructEndpoint (hs₀ : Allocated s₀ K) (r : EndpointRecord) :
    (recovering s₀).Follows (registryAnswer s₀ answers) (reconstructEndpoint r)
      (fun _ y => y.ends s₀) (.child r) := by
  refine Protocol.follows_bind.2 ((follows_lookup rfl rfl rfl rfl).mono ?_)
  rintro node _ ⟨hnode, rfl⟩
  replace hnode : node = s₀.niStorage.lookup r.nodeName := hnode
  cases node with
  | none =>
    exact Or.inr (Or.inr (Or.inr (Or.inr ⟨r, placeOf_eq_none (.inl hnode.symm), Or.inl rfl⟩)))
  | some n =>
    intro wn hwn
    refine ⟨(admits_quiet rfl rfl wn).1, ?_⟩
    obtain rfl : wn = (s₀.nodes n).info := hwn
    intro e _
    refine ⟨Or.inr ⟨r, rfl, ?_⟩, ?_⟩
    · intro p hp
      simp only [State.placeOf, ← hnode, Option.bind_some, Option.map_eq_some_iff] at hp
      obtain ⟨c, -, rfl⟩ := hp
      rfl
    · refine Protocol.follows_bind.2 ((follows_lookup rfl rfl rfl rfl).mono ?_)
      rintro service _ ⟨hservice, rfl⟩
      replace hservice : service = s₀.siStorage.lookup r.serviceName := hservice
      cases service with
      | none =>
        exact Or.inr (Or.inr (Or.inr (Or.inr ⟨r, placeOf_eq_none (.inr hservice.symm),
          Or.inr ⟨e, rfl⟩⟩)))
      | some c =>
        have hplace := placeOf_eq hnode.symm hservice.symm
        intro info hinfo
        refine ⟨(admits_quiet rfl rfl info).1, ?_⟩
        obtain rfl : info = (s₀.services c).info := hinfo
        have hadd : (recovering s₀).Follows (registryAnswer s₀ answers)
            (addEndpointToWNStruct (s₀.nodes n).info.nodeID e (s₀.services c).info.name)
            (fun _ y => y = .mapped r e) (.made r e) := by
          rw [(hs₀.siStorage _ c hservice.symm).2]
          exact follows_addEndpoint hs₀ e hnode.symm hplace
        refine (follows_bind (p := addEndpointToWNStruct _ e _)).2 (hadd.mono ?_)
        rintro _ _ rfl
        refine Protocol.follows_bind.2 ((follows_append e hplace).mono ?_)
        rintro infos _ rfl
        refine (stays_updateEndpoints (fun _ => admits_sync_unless rfl (.inl rfl))
          (admits_quiet rfl rfl) (admits_quiet rfl rfl) (fun _ _ _ => admits_quiet rfl rfl)
          infos).bind fun _ => ?_
        refine (stays_quiet rfl rfl).bind fun _ => ?_
        exact (stays_done_startAutoscaling c).mono fun _ y hy => Or.inr (Or.inl hy)

/-- The goroutine that asks the workers has what they have answered, or has failed. -/
theorem recovering_listAllEndpoints (ns : List ℕ) (got : List EndpointRecord) :
    (recovering s₀).Follows (registryAnswer s₀ answers) (listAllEndpoints ns)
      (fun es y => y = .listing [] (got ++ es)) (.listing ns got) := by
  induction ns generalizing got with
  | nil =>
    show Recovery.listing [] got = .listing [] (got ++ [])
    rw [List.append_nil]
  | cons n ns ih =>
    intro list _
    refine ⟨Or.inr ⟨ns, got, rfl⟩, ?_⟩
    cases list with
    | none => exact Or.inr (Or.inr ⟨n :: ns, got, rfl⟩)
    | some es =>
      refine (follows_bind (p := listAllEndpoints ns)).2 ((ih (got ++ es)).mono ?_)
      rintro rest _ rfl
      show Recovery.listing [] (got ++ es ++ rest) = .listing [] (got ++ (es ++ rest))
      rw [List.append_assoc]

theorem recovering_reconstructEndpointsState :
    (recovering s₀).Follows (registryAnswer s₀ answers) reconstructEndpointsState
      (fun _ y => y.ends s₀) .main := by
  intro ns _
  refine ⟨Or.inr rfl, ?_⟩
  refine (follows_bind (p := listAllEndpoints ns)).2
    ((recovering_listAllEndpoints ns []).mono ?_)
  rintro es _ rfl
  exact ⟨Or.inr (Or.inl ⟨es, rfl, rfl⟩), Or.inl rfl⟩

/-! ### The autoscaler -/

theorem stays_auto (ha : a.isAmbient = true) :
    (recovering s₀).Stays (registryAnswer s₀ answers) .auto (call a) :=
  stays_perform (admits_ambient ha fun _ => rfl)

theorem stays_auto_halt :
    (recovering s₀).Stays (registryAnswer s₀ answers) .auto (.halt : Code α) :=
  Or.inl rfl

theorem stays_auto_stopAutoscalingLoop (c : ℕ) :
    (recovering s₀).Stays (registryAnswer s₀ answers) .auto (stopAutoscalingLoop c) := by
  refine (stays_auto rfl).bind fun _ => (stays_auto rfl).bind fun closed => ?_
  cases closed with
  | false => exact stays_auto_halt
  | true => exact stays_auto rfl

theorem stays_auto_scalingCycle (c : ℕ) (isScaleFromZero : Bool) :
    (recovering s₀).Stays (registryAnswer s₀ answers) .auto (scalingCycle c isScaleFromZero) := by
  refine (stays_auto rfl).bind fun desired => (stays_auto rfl).bind fun offered => ?_
  cases offered with
  | false => exact stays_auto_halt
  | true =>
    refine (stays_auto rfl).bind fun taken => ?_
    cases taken with
    | false => exact stays_auto_halt
    | true =>
      show (recovering s₀).Stays _ _ (if desired = 0 then _ else _)
      split
      · exact (stays_auto_stopAutoscalingLoop c).bind fun _ => rfl
      · exact rfl

theorem stays_auto_round (c : ℕ) (isScaleFromZero : Bool) :
    (recovering s₀).Stays (registryAnswer s₀ answers) .auto (do
      let toStop ← scalingCycle c isScaleFromZero
      if toStop then pure () else .jump (.scalingLoopRound c)) := by
  refine (stays_auto_scalingCycle c isScaleFromZero).bind fun toStop => ?_
  cases toStop with
  | true => exact rfl
  | false => exact Or.inr ⟨rfl, c, rfl⟩

theorem stays_auto_scalingLoopRound (c : ℕ) :
    (recovering s₀).Stays (registryAnswer s₀ answers) .auto (scalingLoopRound c) := by
  refine (stays_auto rfl).bind fun tick => ?_
  cases tick with
  | true => exact stays_auto_round c false
  | false => exact stays_auto_stopAutoscalingLoop c

/-- **All goroutines follow the protocol.** -/
theorem follows_recovering (hs₀ : Allocated s₀ K) (op : Op) :
    (recovering s₀).Follows (registryAnswer s₀ answers) (body op) (fun _ => (recovering s₀).ended)
      ((recovering s₀).start op) := by
  have hauto : ∀ {p : Code Unit}, (recovering s₀).Stays (registryAnswer s₀ answers) .auto p →
      (recovering s₀).Follows (registryAnswer s₀ answers) p
        (fun _ => (recovering s₀).ended) .auto :=
    fun hp => hp.mono fun _ y hy => Or.inr (Or.inr (Or.inl hy))
  have hother : ∀ {p : Code Unit}, (recovering s₀).Follows (registryAnswer s₀ answers) p
      (fun _ => (recovering s₀).ended) .other := by
    intro p
    refine (follows_of_closed (S := fun y => y = .other) ?_
      (fun _ hy => Or.inr (Or.inl hy)) rfl).mono fun _ y hy => Or.inr (Or.inr (Or.inr (Or.inl hy)))
    rintro y l rfl
    refine ⟨Or.inl rfl, ?_⟩
    cases l with
    | act a r => cases a <;> rfl
    | sync o l => cases o <;> cases l <;> rfl
    | _ => rfl
  cases op with
  | reconstructEndpointsState => exact recovering_reconstructEndpointsState
  | reconstructEndpoint r => exact recovering_reconstructEndpoint hs₀ r
  | scalingLoop c => exact hauto (stays_auto_round c true)
  | scalingLoopRound c => exact hauto (stays_auto_scalingLoopRound c)
  | _ => exact hother

end

/-! ## The books -/

/-- What is owed: to a service until the endpoint is in its list (`late`), to a node until it is in
its map. -/
def Recovery.debt (s₀ : State) (answers : Answers) (late : Bool) {β : Type}
    (f : EndpointRecord → Option β) : Recovery → Multiset β
  | .main => ((s₀.allListed answers).filterMap f : List β)
  | .listing todo got | .failed todo got =>
    ((got ++ todo.flatMap fun n => (s₀.listedBy answers n).getD []).filterMap f : List β)
  | .child r | .made r _ => (f r).toList
  | .mapped r _ | .locked r _ | .read r _ _ => if late then (f r).toList else 0
  | _ => 0

/-- What all goroutines owe. -/
def owed (s₀ : State) (answers : Answers) (late : Bool) {β : Type} (f : EndpointRecord → Option β)
    (gs : List (Goroutine Op Recovery)) : Multiset β :=
  (gs.map fun g => g.code.debt s₀ answers late f).sum

/-- There is more in `now` than `earlier`, and that together with what is owed is `all`. -/
def Entered {γ β : Type} (key : γ → ℕ) (value : γ → β) (count : ℕ) (earlier now : List γ)
    (owed all : Multiset β) : Prop :=
  ∃ new, now.Perm (earlier ++ new) ∧ (∀ p ∈ new, key p < count) ∧
    (new.map value : Multiset β) + owed = all

theorem Entered.step {γ β : Type} {key : γ → ℕ} {value value' : γ → β} {count count' : ℕ}
    {earlier now now' : List γ} {owed owed' all : Multiset β}
    (h : Entered key value count earlier now owed all) (added : List γ)
    (hnow : now'.Perm (now ++ added)) (hcount : count ≤ count')
    (hvalue : ∀ p, key p < count → value' p = value p) (hadded : ∀ p ∈ added, key p < count')
    (howed : (added.map value' : Multiset β) + owed' = owed) :
    Entered key value' count' earlier now' owed' all := by
  obtain ⟨new, hperm, hlt, hsum⟩ := h
  refine ⟨new ++ added, ?_, ?_, ?_⟩
  · rw [← List.append_assoc]
    exact hnow.trans (hperm.append_right added)
  · exact List.forall_mem_append.2 ⟨fun p hp => (hlt p hp).trans_le hcount, hadded⟩
  · rw [List.map_append, ← Multiset.coe_add, List.map_congr_left fun p hp => hvalue p (hlt p hp),
      add_assoc, howed]
    exact hsum

/-- The registry is that of `s₀`. -/
structure SameRegistry (s₀ d : State) : Prop where
  niStorage : d.niStorage = s₀.niStorage
  siStorage : d.siStorage = s₀.siStorage
  node : ∀ n, (d.nodes n).info = (s₀.nodes n).info ∧ (d.nodes n).connected = (s₀.nodes n).connected
  service : ∀ c, (d.services c).info = (s₀.services c).info

/-- The endpoint `e` has been made for `r`. -/
def IsMadeFor (s₀ d : State) (r : EndpointRecord) (e : ℕ) : Prop :=
  e < d.endpointCount ∧ ∀ p, s₀.placeOf r = some p → d.endpoints e = p.2.2

/-- The endpoint is in the map of no node. -/
def IsUnmapped (s₀ d : State) (e : ℕ) : Prop :=
  ∀ name n, s₀.niStorage.lookup name = some n → e ∉ (d.nodes n).endpointMap

/-- What is so where a goroutine is. -/
def Recovery.Valid (s₀ : State) (answers : Answers) (d : State) : Recovery → Prop
  | .listing todo _ => todo ⊆ s₀.niStorage.entries.map Sigma.snd ∧
      ∀ n ∈ s₀.niStorage.entries.map Sigma.snd, n ∈ todo ∨ s₀.listedBy answers n ≠ none
  | .failed _ _ => ∃ n ∈ s₀.niStorage.entries.map Sigma.snd, s₀.listedBy answers n = none
  | .spawned => ∀ n ∈ s₀.niStorage.entries.map Sigma.snd, s₀.listedBy answers n ≠ none
  | .made r e => IsMadeFor s₀ d r e ∧ IsUnmapped s₀ d e
  | .mapped r e | .locked r e | .read r e _ => IsMadeFor s₀ d r e
  | .other => False
  | _ => True

/-- **The books** in a state `d` of the reconstruction. -/
structure Recovered (s₀ : State) (answers : Answers) (d : State)
    (gs : List (Goroutine Op Recovery)) : Prop where
  registry : SameRegistry s₀ d
  count : s₀.endpointCount ≤ d.endpointCount
  services : ∀ c, Entered id d.endpoints d.endpointCount (s₀.services c).endpoints
    (d.services c).endpoints (owed s₀ answers true (s₀.entryOfService c) gs)
    ((s₀.allListed answers).filterMap (s₀.entryOfService c) : List Endpoint)
  nodes : ∀ n, Entered Sigma.fst (fun p => (d.endpoints p.1, p.2)) d.endpointCount
    (s₀.nodes n).endpointMap.entries (d.nodes n).endpointMap.entries
    (owed s₀ answers false (s₀.entryOfNode n) gs)
    ((s₀.allListed answers).filterMap (s₀.entryOfNode n) : List (Endpoint × String))
  valid : ∀ g ∈ gs, g.code.Valid s₀ answers d
  apart : ∀ (i j : ℕ) (g u : Goroutine Op Recovery) r r' e, gs[i]? = some g → gs[j]? = some u →
    g.code = .made r e → u.code = .made r' e → i = j

section

variable {s₀ d d' : State} {answers : Answers} {gs new : List (Goroutine Op Recovery)}
  {g g' : Goroutine Op Recovery} {x : Recovery} {i : ℕ} {ch : Choice} {late : Bool} {β : Type}
  {f : EndpointRecord → Option β}

/-- What is owed after a goroutine has moved and has paid. -/
theorem owed_advance {paid : Multiset β} (hg : gs[i]? = some g)
    (hdebt : paid + g'.code.debt s₀ answers late f + owed s₀ answers late f new =
      g.code.debt s₀ answers late f) :
    paid + owed s₀ answers late f (advance gs i g' new) = owed s₀ answers late f gs := by
  have hsum := sum_advance (fun g : Goroutine Op Recovery => g.code.debt s₀ answers late f)
    hg g' new
  refine add_right_cancel (b := g.code.debt s₀ answers late f) ?_
  calc paid + owed s₀ answers late f (advance gs i g' new) + g.code.debt s₀ answers late f
      = paid + (owed s₀ answers late f gs + g'.code.debt s₀ answers late f +
          owed s₀ answers late f new) := by rw [add_assoc]; exact congrArg (paid + ·) hsum
    _ = owed s₀ answers late f gs + (paid + g'.code.debt s₀ answers late f +
          owed s₀ answers late f new) := by abel
    _ = owed s₀ answers late f gs + g.code.debt s₀ answers late f := by rw [hdebt]

/-- What a goroutine knows stays so, if endpoints stay and none that it has made comes into a map.
-/
theorem Recovery.Valid.mono (h : x.Valid s₀ answers d) (hcount : d.endpointCount ≤ d'.endpointCount)
    (hold : ∀ e < d.endpointCount, d'.endpoints e = d.endpoints e)
    (hmaps : ∀ r e, x = .made r e → IsUnmapped s₀ d' e) : x.Valid s₀ answers d' := by
  have hmade : ∀ {r e}, IsMadeFor s₀ d r e → IsMadeFor s₀ d' r e := by
    rintro r e ⟨hlt, hp⟩
    refine ⟨hlt.trans_le hcount, ?_⟩
    intro p hplace
    rw [hold e hlt]
    exact hp p hplace
  cases x with
  | made r e => exact ⟨hmade h.1, hmaps r e rfl⟩
  | mapped | locked | read => exact hmade h
  | _ => exact h

/-- Neither the registry nor endpoints have changed. -/
structure SameEntries (d d' : State) : Prop where
  niStorage : d'.niStorage = d.niStorage
  siStorage : d'.siStorage = d.siStorage
  nodes : d'.nodes = d.nodes
  services : ∀ c, (d'.services c).info = (d.services c).info ∧
    (d'.services c).endpoints = (d.services c).endpoints
  endpoints : d'.endpoints = d.endpoints
  endpointCount : d'.endpointCount = d.endpointCount

theorem SameEntries.refl (d : State) : SameEntries d d :=
  ⟨rfl, rfl, rfl, fun _ => ⟨rfl, rfl⟩, rfl, rfl⟩

variable {c n e : ℕ} {a : Act} {got : List EndpointRecord} {K : Set Ref} {r : EndpointRecord}
  {ep : Endpoint}

theorem sameEntries_modifyService {k : Service → Service}
    (hk : (k (d.services c)).info = (d.services c).info ∧
      (k (d.services c)).endpoints = (d.services c).endpoints) :
    SameEntries d (d.modifyService c k) := by
  refine ⟨rfl, rfl, rfl, ?_, rfl, rfl⟩
  intro c'
  by_cases hc : c' = c
  · subst hc
    rw [modifyService_services_self]
    exact hk
  · rw [modifyService_services_ne hc]
    exact ⟨rfl, rfl⟩

theorem sameEntries_of_ambient {r : a.Ans} (ha : a.isAmbient = true)
    (h : exec a d ch = some (r, d')) : SameEntries d d' := by
  cases a with
  | getNode | nodeInfo | getService | serviceInfo | prepareEndpointInfo | dataPlanes =>
    cases h
    exact .refl d
  | addActualScale | clearAutoscaling | makeStopCh | dropStopCh =>
    cases h
    exact sameEntries_modifyService ⟨rfl, rfl⟩
  | updateEndpointList ip name es =>
    simp only [exec] at h
    repeat' split at h
    all_goals cases h
    all_goals exact ⟨rfl, rfl, rfl, fun _ => ⟨rfl, rfl⟩, rfl, rfl⟩
  | casAutoscaling | closeStopCh | knativeScaling | offer | awaitTaken | selectTick =>
    simp only [exec] at h
    repeat' split at h
    all_goals cases h
    all_goals first | exact .refl d | exact sameEntries_modifyService ⟨rfl, rfl⟩
  | _ => cases ha

theorem SameRegistry.of_sameEntries (h : SameRegistry s₀ d) (hsame : SameEntries d d') :
    SameRegistry s₀ d' := by
  refine ⟨hsame.niStorage.trans h.niStorage, hsame.siStorage.trans h.siStorage, ?_, ?_⟩
  · rw [hsame.nodes]
    exact h.node
  · intro c
    exact (hsame.services c).1.trans (h.service c)

theorem lookup_of_placeOf (hplace : s₀.placeOf r = some (n, c, ep)) :
    s₀.niStorage.lookup r.nodeName = some n := by
  simp only [State.placeOf, Option.bind_eq_some_iff, Option.map_eq_some_iff,
    Prod.mk.injEq] at hplace
  obtain ⟨m, hm, c', -, rfl, -⟩ := hplace
  exact hm

theorem filterMap_flatMap_perm {ns ns' : List ℕ} (hns : ns.Perm ns') (k : ℕ → List EndpointRecord)
    (f : EndpointRecord → Option β) :
    ((ns.flatMap k).filterMap f).Perm ((ns'.flatMap k).filterMap f) :=
  (hns.flatMap_right k).filterMap f

/-- The goroutines for listed endpoints owe what was listed. -/
theorem owed_map_child (got : List EndpointRecord) (late : Bool) (f : EndpointRecord → Option β) :
    owed s₀ answers late f ((got.map Op.reconstructEndpoint).map ((recovering s₀).goroutine none)) =
      (got.filterMap f : List β) := by
  induction got with
  | nil => rfl
  | cons r got ih =>
    have hcons : owed s₀ answers late f
        (((r :: got).map Op.reconstructEndpoint).map ((recovering s₀).goroutine none)) =
          (f r).toList + owed s₀ answers late f
            ((got.map Op.reconstructEndpoint).map ((recovering s₀).goroutine none)) :=
      List.sum_cons
    rw [hcons, ih]
    cases hr : f r with
    | none => rw [List.filterMap_cons_none hr]; rfl
    | some b => rw [List.filterMap_cons_some hr]; rfl

theorem owed_eq_zero (hnew : ∀ u ∈ new, u.code = .auto) : owed s₀ answers late f new = 0 := by
  refine List.sum_eq_zero fun m hm => ?_
  obtain ⟨u, hu, rfl⟩ := List.mem_map.1 hm
  rw [hnew u hu]
  rfl

namespace Recovered

variable (h : Recovered s₀ answers d gs) (hg : gs[i]? = some g)

include h hg

theorem valid_of (hx : g.code = x) :
    x.Valid s₀ answers d := hx ▸ h.valid g (List.mem_of_getElem? hg)

/-- **A goroutine moves.** The books are kept if what comes into lists and maps is what the
goroutine owes less. -/
theorem move (hregistry : SameRegistry s₀ d') (hcount : d.endpointCount ≤ d'.endpointCount)
    (hold : ∀ e < d.endpointCount, d'.endpoints e = d.endpoints e)
    (hservices : ∀ c, ∃ added : List ℕ,
      (d'.services c).endpoints.Perm ((d.services c).endpoints ++ added) ∧
      (∀ e ∈ added, e < d'.endpointCount) ∧
      (added.map d'.endpoints : Multiset Endpoint) +
          g'.code.debt s₀ answers true (s₀.entryOfService c) +
            owed s₀ answers true (s₀.entryOfService c) new =
        g.code.debt s₀ answers true (s₀.entryOfService c))
    (hnodes : ∀ n, ∃ added : List (Sigma fun _ : ℕ => String),
      (d'.nodes n).endpointMap.entries.Perm ((d.nodes n).endpointMap.entries ++ added) ∧
      (∀ p ∈ added, p.1 < d'.endpointCount) ∧
      (added.map (fun p => (d'.endpoints p.1, p.2)) : Multiset (Endpoint × String)) +
          g'.code.debt s₀ answers false (s₀.entryOfNode n) +
            owed s₀ answers false (s₀.entryOfNode n) new =
        g.code.debt s₀ answers false (s₀.entryOfNode n))
    (hvalid : g'.code.Valid s₀ answers d') (hnew : ∀ u ∈ new, u.code.Valid s₀ answers d')
    (hmaps : ∀ j u r e, gs[j]? = some u → j ≠ i → u.code = .made r e → IsUnmapped s₀ d' e)
    (hapart : ∀ j u r r' e, gs[j]? = some u → j ≠ i → u.code = .made r e → g'.code ≠ .made r' e)
    (hmade : ∀ u ∈ new, ∀ r e, u.code ≠ .made r e) :
    Recovered s₀ answers d' (advance gs i g' new) := by
  refine ⟨hregistry, h.count.trans hcount, ?_, ?_, ?_, ?_⟩
  · intro c
    obtain ⟨added, hperm, hlt, hdebt⟩ := hservices c
    exact (h.services c).step added hperm hcount hold hlt (owed_advance hg hdebt)
  · intro n
    obtain ⟨added, hperm, hlt, hdebt⟩ := hnodes n
    refine (h.nodes n).step added hperm hcount ?_ hlt (owed_advance hg hdebt)
    intro p hp
    show (d'.endpoints p.1, p.2) = (d.endpoints p.1, p.2)
    rw [hold p.1 hp]
  · intro u hu
    rcases mem_advance hg hu with rfl | ⟨j, hj, hu⟩ | hu
    · exact hvalid
    · exact (h.valid u (List.mem_of_getElem? hu)).mono hcount hold fun r e => hmaps j u r e hu hj
    · exact hnew u hu
  · intro j k u v r r' e hu hv hue hve
    rcases getElem?_advance hg hu with ⟨rfl, rfl⟩ | ⟨hj, hu'⟩ | ⟨-, hu⟩
    · rcases getElem?_advance hg hv with ⟨rfl, rfl⟩ | ⟨hk, hv⟩ | ⟨-, hv⟩
      · rfl
      · exact absurd hue (hapart k v r' r e hv hk hve)
      · exact absurd hve (hmade v hv r' e)
    · rcases getElem?_advance hg hv with ⟨rfl, rfl⟩ | ⟨-, hv⟩ | ⟨-, hv⟩
      · exact absurd hve (hapart j u r r' e hu' hj hue)
      · exact h.apart j k u v r r' e hu' hv hue hve
      · exact absurd hve (hmade v hv r' e)
    · exact absurd hue (hmade u hu r e)

/-- **A goroutine moves and enters nothing.** -/
theorem frame (hsame : SameEntries d d')
    (hdebt : ∀ {β : Type} (late : Bool) (f : EndpointRecord → Option β),
      g'.code.debt s₀ answers late f + owed s₀ answers late f new = g.code.debt s₀ answers late f)
    (hvalid : g'.code.Valid s₀ answers d) (hnew : ∀ u ∈ new, u.code.Valid s₀ answers d)
    (hapart : ∀ r e, g'.code = .made r e → g.code = .made r e)
    (hmade : ∀ u ∈ new, ∀ r e, u.code ≠ .made r e) :
    Recovered s₀ answers d' (advance gs i g' new) := by
  have hvalid' : ∀ {y : Recovery}, y.Valid s₀ answers d → y.Valid s₀ answers d' := by
    intro y hy
    refine hy.mono hsame.endpointCount.ge (fun e _ => by rw [hsame.endpoints]) ?_
    rintro r e rfl name n hn
    rw [hsame.nodes]
    exact hy.2 name n hn
  refine h.move hg (h.registry.of_sameEntries hsame) hsame.endpointCount.ge
    (fun e _ => by rw [hsame.endpoints]) ?_ ?_ (hvalid' hvalid)
      (fun u hu => hvalid' (hnew u hu)) ?_ ?_
    hmade
  · exact fun c => ⟨[], by simp [(hsame.services c).2], by simp, by simpa using hdebt true _⟩
  · exact fun n => ⟨[], by simp [hsame.nodes], by simp, by simpa using hdebt false _⟩
  · exact fun j u r e hu _ hue => (hvalid' (h.valid_of hu hue)).2
  · intro j u r r' e hu hj hue hge
    exact hj (h.apart j i u g r r' e hu hg hue (hapart r' e hge))

theorem frame_act {r : a.Ans} (hsame : SameEntries d d')
    (hdebt : ∀ {β : Type} (late : Bool) (f : EndpointRecord → Option β),
      (g.code.afterAct a r).debt s₀ answers late f = g.code.debt s₀ answers late f)
    (hvalid : (g.code.afterAct a r).Valid s₀ answers d)
    (hmade : ∀ v e, g.code.afterAct a r = .made v e → g.code = .made v e) :
    Recovered s₀ answers d' (advance gs i { g with code := g.code.afterAct a r } []) := by
  refine h.frame hg hsame ?_ hvalid (List.forall_mem_nil _) hmade (List.forall_mem_nil _)
  intro β late f
  show (g.code.afterAct a r).debt s₀ answers late f + 0 = _
  rw [add_zero, hdebt]

/-- The workers that are to be asked owe what all list. -/
theorem act_nodes {ns : List ℕ}
    (hmain : g.code = .main) (hns : ns.Perm (s₀.niStorage.entries.map Sigma.snd)) :
    Recovered s₀ answers d (advance gs i { g with code := g.code.afterAct .nodes ns } []) := by
  refine h.frame_act hg (.refl d) ?_ ?_ ?_
  · intro β late f
    rw [hmain]
    show ((([] ++ ns.flatMap _).filterMap f : List β) : Multiset β) = _
    rw [List.nil_append]
    exact Multiset.coe_eq_coe.2 (filterMap_flatMap_perm hns _ f)
  · rw [hmain]
    exact ⟨hns.subset, fun n hn => Or.inl (hns.mem_iff.2 hn)⟩
  · simp [hmain, Recovery.afterAct]

theorem act_listEndpoints {todo : List ℕ} (hcode : g.code = .listing (n :: todo) got) :
    Recovered s₀ answers d (advance gs i
      { g with code := g.code.afterAct (.listEndpoints n) (s₀.listedBy answers n) } []) := by
  have hvalid := h.valid_of hg hcode
  refine h.frame_act hg (.refl d) ?_ ?_ ?_
  · intro β late f
    rw [hcode]
    cases hlist : s₀.listedBy answers n with
    | none => rfl
    | some es =>
      show (((got ++ es ++ todo.flatMap _).filterMap f : List β) : Multiset β) =
        ((got ++ (n :: todo).flatMap _).filterMap f : List β)
      rw [List.flatMap_cons, hlist, List.append_assoc]
      rfl
  · rw [hcode]
    cases hlist : s₀.listedBy answers n with
    | none => exact ⟨n, hvalid.1 List.mem_cons_self, hlist⟩
    | some es =>
      refine ⟨fun m hm => hvalid.1 (List.mem_cons_of_mem _ hm), ?_⟩
      intro m hm
      rcases hvalid.2 m hm with hmem | hsome
      · rcases List.mem_cons.1 hmem with rfl | hmem
        · exact Or.inr (by simp [hlist])
        · exact Or.inl hmem
      · exact Or.inr hsome
  · rw [hcode]
    intro v e hv
    cases hlist : s₀.listedBy answers n <;> rw [hlist] at hv <;> cases hv

omit hg in
theorem isUnmapped (hs₀ : Allocated s₀ K) :
    IsUnmapped s₀ d d.endpointCount := by
  intro name n hn hmem
  obtain ⟨added, hperm, hlt, -⟩ := h.nodes n
  have hkey : d.endpointCount ∈ (d.nodes n).endpointMap.entries.map Sigma.fst := hmem
  rw [(hperm.map Sigma.fst).mem_iff, List.map_append, List.mem_append] at hkey
  rcases hkey with hkey | hkey
  · have hexists := hs₀.endpoint _ (hs₀.mapped n (hs₀.niStorage name n hn).1 _ hkey)
    exact absurd (hexists.trans_le h.count) (lt_irrefl _)
  · obtain ⟨p, hp, heq⟩ := List.mem_map.1 hkey
    have hlt' := hlt p hp
    rw [heq] at hlt'
    exact lt_irrefl _ hlt'

theorem act_newEndpoint (hs₀ : Allocated s₀ K) (hcode : g.code = .child r)
    (hep : ∀ p, s₀.placeOf r = some p → ep = p.2.2) :
    Recovered s₀ answers { d with
        endpoints := Function.update d.endpoints d.endpointCount ep
        endpointCount := d.endpointCount + 1 }
      (advance gs i { g with code := .made r d.endpointCount } []) := by
  have hold : ∀ e < d.endpointCount, Function.update d.endpoints d.endpointCount ep e =
      d.endpoints e :=
    fun e he => Function.update_of_ne he.ne _ _
  refine h.move hg ⟨h.registry.niStorage, h.registry.siStorage, h.registry.node, h.registry.service⟩
    (Nat.le_succ _) hold ?_ ?_ ?_ (List.forall_mem_nil _) ?_ ?_ (List.forall_mem_nil _)
  · exact fun c => ⟨[], by simp, by simp, by simp [hcode, Recovery.debt, owed]⟩
  · exact fun n => ⟨[], by simp, by simp, by simp [hcode, Recovery.debt, owed]⟩
  · refine ⟨⟨Nat.lt_succ_self _, ?_⟩, h.isUnmapped hs₀⟩
    intro p hp
    show Function.update d.endpoints d.endpointCount ep d.endpointCount = p.2.2
    rw [Function.update_self]
    exact hep p hp
  · exact fun j u r' e hu _ hue => (h.valid_of hu hue).2
  · intro j u r' v e hu _ hue hge
    cases hge
    exact lt_irrefl _ (h.valid_of hu hue).1.1

theorem act_endpointMapSet (hcode : g.code = .made r e) (hplace : s₀.placeOf r = some (n, c, ep)) :
    Recovered s₀ answers
      (d.modifyNode n fun wn => { wn with endpointMap := wn.endpointMap.insert e r.serviceName })
      (advance gs i { g with code := .mapped r e } []) := by
  obtain ⟨hmade, hunmapped⟩ := h.valid_of hg hcode
  have hnodes : ∀ n' ≠ n, (d.modifyNode n fun wn =>
      { wn with endpointMap := wn.endpointMap.insert e r.serviceName }).nodes n' = d.nodes n' :=
    fun n' hn => Function.update_of_ne hn _ _
  have hself : (d.modifyNode n fun wn =>
      { wn with endpointMap := wn.endpointMap.insert e r.serviceName }).nodes n =
        { d.nodes n with endpointMap := (d.nodes n).endpointMap.insert e r.serviceName } :=
    Function.update_self _ _ _
  refine h.move hg ?_ le_rfl (fun _ _ => rfl) ?_ ?_ hmade (List.forall_mem_nil _) ?_ ?_
    (List.forall_mem_nil _)
  · refine ⟨h.registry.niStorage, h.registry.siStorage, ?_, h.registry.service⟩
    intro n'
    by_cases hn : n' = n
    · subst hn
      rw [hself]
      exact h.registry.node n'
    · rw [hnodes n' hn]
      exact h.registry.node n'
  · exact fun c' => ⟨[], by simp [State.modifyNode], by simp, by simp [hcode, Recovery.debt, owed]⟩
  · intro n'
    by_cases hn : n' = n
    · subst hn
      refine ⟨[⟨e, r.serviceName⟩], ?_, ?_, ?_⟩
      · rw [hself]
        show ((d.nodes n').endpointMap.insert e r.serviceName).entries.Perm _
        rw [AList.entries_insert_of_notMem (hunmapped _ n' (lookup_of_placeOf hplace))]
        exact (List.perm_append_singleton _ _).symm
      · simpa [State.modifyNode] using hmade.1
      · rw [hcode]
        show ({(d.endpoints e, r.serviceName)} : Multiset (Endpoint × String)) + 0 + 0 =
          (s₀.entryOfNode n' r).toList
        rw [hmade.2 _ hplace]
        simp [State.entryOfNode, hplace]
    · exact ⟨[], by simp [hnodes n' hn], by simp,
        by simp [hcode, Recovery.debt, owed, State.entryOfNode, hplace, Ne.symm hn]⟩
  · intro j u r' e' hu hj hue name m hm
    have hu' := h.valid_of hu hue
    by_cases hmn : m = n
    · subst hmn
      rw [hself]
      show e' ∉ (d.nodes m).endpointMap.insert e r.serviceName
      rw [AList.mem_insert, not_or]
      refine ⟨?_, hu'.2 name m hm⟩
      rintro rfl
      exact hj (h.apart j i u g r' r e' hu hg hue hcode)
    · rw [hnodes m hmn]
      exact hu'.2 name m hm
  · intro j u r' v e' _ _ _ hge
    cases hge

/-- An endpoint is appended to the list of its service, which is as it was read. -/
theorem act_setEndpoints {seen : List ℕ} (hcode : g.code = .read r e seen)
    (hplace : s₀.placeOf r = some (n, c, ep)) (hseen : (d.services c).endpoints = seen) :
    Recovered s₀ answers (d.modifyService c fun ss => { ss with endpoints := seen ++ [e] })
      (advance gs i { g with code := .done } []) := by
  have hmade : IsMadeFor s₀ d r e := h.valid_of hg hcode
  refine h.move hg ?_ le_rfl (fun _ _ => rfl) ?_ ?_ trivial (List.forall_mem_nil _) ?_ ?_
    (List.forall_mem_nil _)
  · refine ⟨h.registry.niStorage, h.registry.siStorage, h.registry.node, ?_⟩
    intro c'
    by_cases hc : c' = c
    · subst hc
      rw [modifyService_services_self]
      exact h.registry.service c'
    · rw [modifyService_services_ne hc]
      exact h.registry.service c'
  · intro c'
    by_cases hc : c' = c
    · subst hc
      refine ⟨[e], ?_, ?_, ?_⟩
      · rw [modifyService_services_self, hseen]
      · simpa [State.modifyService] using hmade.1
      · rw [hcode]
        show ({d.endpoints e} : Multiset Endpoint) + 0 + 0 = (s₀.entryOfService c' r).toList
        rw [hmade.2 _ hplace]
        simp [State.entryOfService, hplace]
    · exact ⟨[], by simp [modifyService_services_ne hc], by simp,
        by simp [hcode, Recovery.debt, owed, State.entryOfService, hplace, Ne.symm hc]⟩
  · exact fun n' =>
      ⟨[], by simp [State.modifyService], by simp, by simp [hcode, Recovery.debt, owed]⟩
  · exact fun j u r' e' hu _ hue => (h.valid_of hu hue).2
  · intro j u r' v e' _ _ _ hge
    cases hge

theorem code_ne_other :
    g.code ≠ .other := fun hother => h.valid_of hg hother

theorem act_ambient {r : a.Ans} (ha : a.isAmbient = true) (hexec : exec a d ch = some (r, d')) :
    Recovered s₀ answers d' (advance gs i { g with code := g.code.afterAct a r } []) := by
  refine h.frame_act hg (sameEntries_of_ambient ha hexec) ?_ ?_ ?_
  · intro β late f
    rw [afterAct_ambient ha]
  · rw [afterAct_ambient ha]
    exact h.valid g (List.mem_of_getElem? hg)
  · intro v e hv
    rw [afterAct_ambient ha] at hv
    exact hv

/-- **Every action keeps the books**, if a list is stored as it was read. -/
theorem act {r : a.Ans} (hs₀ : Allocated s₀ K) (hguard : (recovering s₀).guard g.code (.act a r))
    (hexec : exec a d ch = some (r, d')) (hallowed : registryAnswer s₀ answers a r)
    (hread : ∀ c seen e, a = .setEndpoints c seen e → (d.services c).endpoints = seen) :
    Recovered s₀ answers d' (advance gs i { g with code := g.code.afterAct a r } []) := by
  have hmay : g.code.may s₀ a := hguard.resolve_left (h.code_ne_other hg)
  have hvalid := h.valid g (List.mem_of_getElem? hg)
  cases a with
  | nodes =>
    cases hexec
    exact h.act_nodes hg hmay hallowed
  | listEndpoints n =>
    obtain ⟨todo, got, hcode⟩ := hmay
    obtain rfl : d' = d := by
      simp only [exec] at hexec
      repeat' split at hexec
      all_goals cases hexec
      all_goals rfl
    obtain rfl : r = s₀.listedBy answers n := hallowed
    exact h.act_listEndpoints hg hcode
  | newEndpoint ep =>
    obtain ⟨v, hcode, hep⟩ := hmay
    cases hexec
    have hnew := h.act_newEndpoint hg hs₀ hcode hep
    rw [hcode]
    exact hnew
  | endpointMapSet n e name =>
    obtain ⟨v, c, ep, hcode, hplace, rfl⟩ := hmay
    cases hexec
    have hset := h.act_endpointMapSet hg hcode hplace
    rw [hcode]
    exact hset
  | getEndpoints c =>
    cases hexec
    refine h.frame_act hg (.refl d) ?_ ?_ ?_
    · intro β late f
      rcases hmay with ⟨v, e, n, ep, hcode, -⟩ | hcode <;> rw [hcode] <;> rfl
    · rcases hmay with ⟨v, e, n, ep, hcode, -⟩ | hcode <;> rw [hcode] at hvalid ⊢ <;> exact hvalid
    · rcases hmay with ⟨v, e, n, ep, hcode, -⟩ | hcode <;> rw [hcode] <;> intro v e hv <;> cases hv
  | setEndpoints c seen e =>
    obtain ⟨v, n, ep, hcode, hplace⟩ := hmay
    cases hexec
    have hset := h.act_setEndpoints hg hcode hplace (hread c seen e rfl)
    rw [hcode]
    exact hset
  | _ => exact h.act_ambient hg hmay.1 hexec

theorem start (hcode : g'.code = g.code) (hauto : ∀ u ∈ new, u.code = .auto) :
    Recovered s₀ answers d (advance gs i g' new) := by
  refine h.frame hg (.refl d) ?_ ?_ ?_ ?_ ?_
  · intro β late f
    rw [owed_eq_zero hauto, add_zero, hcode]
  · exact h.valid_of hg hcode.symm
  · intro u hu
    rw [hauto u hu]
    trivial
  · intro r e hr
    exact hcode.symm.trans hr
  · intro u hu r e hue
    rw [hauto u hu] at hue
    cases hue

theorem keep (hcode : g'.code = g.code) : Recovered s₀ answers d (advance gs i g' []) :=
  h.start hg hcode (List.forall_mem_nil _)

theorem lock (l : Lock) (hcode : g'.code = g.code.after (.sync .lock l)) :
    Recovered s₀ answers d (advance gs i g' []) := by
  by_cases hmapped : (∃ r e, g.code = .mapped r e) ∧ l.isEndpointLock = true
  · obtain ⟨⟨r, e, hr⟩, hl⟩ := hmapped
    have hlocked : g'.code = .locked r e := by
      rw [hcode, hr]
      cases l with
      | endpointLock c => rfl
      | _ => cases hl
    refine h.frame hg (.refl d) ?_ ?_ (List.forall_mem_nil _) ?_ (List.forall_mem_nil _)
    · intro β late f
      rw [hlocked, hr]
      exact add_zero _
    · have hvalid := h.valid_of hg hr
      rw [hlocked]
      exact hvalid
    · simp [hlocked]
  · refine h.keep hg (hcode.trans ?_)
    cases l with
    | endpointLock c =>
      cases hx : g.code with
      | mapped r e => exact absurd ⟨⟨r, e, hx⟩, rfl⟩ hmapped
      | _ => rfl
    | _ => rfl

/-- All workers have been asked, and the goroutines for what they list are started. -/
theorem spawn (hcode : g.code = .listing [] got) (hspawned : g'.code = .spawned) :
    Recovered s₀ answers d (advance gs i g'
      ((got.map Op.reconstructEndpoint).map ((recovering s₀).goroutine none))) := by
  have hvalid := h.valid_of hg hcode
  have hchild : ∀ u ∈ (got.map Op.reconstructEndpoint).map ((recovering s₀).goroutine none),
      ∃ r, u.code = .child r := by
    intro u hu
    obtain ⟨op, hop, rfl⟩ := List.mem_map.1 hu
    obtain ⟨r, -, rfl⟩ := List.mem_map.1 hop
    exact ⟨r, rfl⟩
  refine h.frame hg (.refl d) ?_ ?_ ?_ ?_ ?_
  · intro β late f
    rw [hspawned, owed_map_child, hcode]
    show (0 : Multiset β) + _ = ((got ++ []).filterMap f : List β)
    rw [zero_add, List.append_nil]
  · rw [hspawned]
    intro n hn
    exact (hvalid.2 n hn).resolve_left List.not_mem_nil
  · intro u hu
    obtain ⟨r, hr⟩ := hchild u hu
    rw [hr]
    trivial
  · simp [hspawned]
  · intro u hu r e hue
    obtain ⟨v, hv⟩ := hchild u hu
    rw [hv] at hue
    cases hue

/-- **What is no action keeps the books.** -/
theorem passive {s s' : Shared Lock State}
    (hm : (recovering s₀).passive.Moves exec s i g ch s' g' new) :
    Recovered s₀ answers d (advance gs i g' new) := by
  have hother := h.code_ne_other hg
  cases hm with
  | finish | announce | unlock | rlock | runlock => exact h.keep hg rfl
  | @act a r _ _ hguard => exact absurd rfl (hguard.2 a r)
  | @acquire l => exact h.lock hg l rfl
  | join _ hguard | joined _ hguard => exact absurd (hguard.1.resolve_left hother) id
  | jump _ hguard =>
    obtain ⟨hauto, c, rfl⟩ := hguard.1.resolve_left hother
    exact h.keep hg hauto.symm
  | @go cs _ hguard =>
    rcases hguard.1.resolve_left hother with ⟨got, hcode, rfl⟩ | ⟨hdone, hcs⟩
    · refine h.spawn hg hcode ?_
      show g.code.after (.go (got.map .reconstructEndpoint)) = .spawned
      rw [hcode]
      rfl
    · refine h.start hg ?_ ?_
      · show g.code.after (.go cs) = g.code
        rw [hdone]
        rfl
      · intro u hu
        obtain ⟨op, hop, rfl⟩ := List.mem_map.1 hu
        obtain ⟨c, rfl⟩ := hcs op hop
        rfl

end Recovered

end

end Dirigent.ControlPlane
