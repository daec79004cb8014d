import Dirigent.Progress
import Dirigent.ControlPlane.Persistence
import Dirigent.ControlPlane.Placement

/-!
# The registry and the store

Data planes, worker nodes and services are registered twice: in a map in memory and as a record of
the persistence layer. Each of the six operations changes the record first and the map later, with
calls to other processes in between.

**Debts.** An operation that has changed a record and not yet the map owes that change (`Ledger`).
It holds the lock of the map in the meantime, so nobody else owes anything there.

**Agreement (`Ledgers`).** Under each name the map and the store agree, or somebody owes the change.
Every move keeps this, if the calls succeed (`Ledgers.move`).

* `registered_eq_stored_of_run` — when all calls have returned, the map is the store.
-/

namespace Dirigent.ControlPlane

open DataPlane (EndpointInfo)
open Prog Protocol Threads

/-! ## Records -/

inductive Record
  | dataPlane (info : DataplaneInfo)
  | worker (info : NodeInfo)
  | service (info : ServiceInfo)
  deriving DecidableEq, Repr

def Kind.lock : Kind → Lock
  | .dataPlane => .dataPlaneConnections
  | .worker => .niStorage
  | .service => .siStorage

namespace Record

def kind : Record → Kind
  | .dataPlane _ => .dataPlane
  | .worker _ => .worker
  | .service _ => .service

def name : Record → String
  | .dataPlane info => info.ip
  | .worker info => info.nodeID
  | .service info => info.name

end Record

/-- What is registered under each name. -/
def State.registered (s : State) : Kind → String → Option Record
  | .dataPlane, ip => (s.dataPlaneConnections.lookup ip).map .dataPlane
  | .worker, name => (s.niStorage.lookup name).map fun n => .worker (s.nodes n).info
  | .service, name => (s.siStorage.lookup name).map fun c => .service (s.services c).info

/-- What the persistence layer has under each name. -/
def State.stored (s : State) : Kind → String → Option Record
  | .dataPlane, ip => (s.storedDataPlanes.lookup ip).map .dataPlane
  | .worker, name => (s.storedWorkers.lookup name).map .worker
  | .service, name => (s.storedServices.lookup name).map .service

/-- What is to be found under a name. -/
abbrev Change := Kind × String × Option Record

/-- The change that an action makes to the store. -/
def Act.stores : Act → Option Change
  | .storeDataPlaneInformation info => some (.dataPlane, info.ip, some (.dataPlane info))
  | .deleteDataPlaneInformation ip => some (.dataPlane, ip, none)
  | .storeWorkerNodeInformation info => some (.worker, info.nodeID, some (.worker info))
  | .deleteWorkerNodeInformation name => some (.worker, name, none)
  | .storeServiceInformation info => some (.service, info.name, some (.service info))
  | .deleteServiceInformation name => some (.service, name, none)
  | _ => none

/-- The change that an action makes to the registry. -/
def Act.registers (s : State) : Act → Option Change
  | .setDataPlane info => some (.dataPlane, info.ip, some (.dataPlane info))
  | .removeDataPlane ip => some (.dataPlane, ip, none)
  | .setNode n => some (.worker, (s.nodes n).info.nodeID, some (.worker (s.nodes n).info))
  | .removeNode name => some (.worker, name, none)
  | .setService info _ => some (.service, info.name, some (.service info))
  | .removeService name => some (.service, name, none)
  | _ => none

def Change.apply (c : Option Change) (f : Kind → String → Option Record) :
    Kind → String → Option Record :=
  match c with
  | none => f
  | some c => fun k name => if k = c.1 ∧ name = c.2.1 then c.2.2 else f k name

section

variable {s s' : State} {a : Act} {r : a.Ans} {ch : Choice} {K : Set Ref}

theorem Change.apply_self (c : Change) (f : Kind → String → Option Record) :
    Change.apply (some c) f c.1 c.2.1 = c.2.2 := if_pos ⟨rfl, rfl⟩

theorem Change.apply_of_ne {c : Change} {f : Kind → String → Option Record} {k : Kind}
    {name : String}
    (h : ¬(k = c.1 ∧ name = c.2.1)) : Change.apply (some c) f k name = f k name := if_neg h

theorem lookup_insert_map {β γ : Type} (m : AList fun _ : String => β) (f : β → γ) (x y : String)
    (b : β) :
    ((m.insert x b).lookup y).map f = if y = x then some (f b) else (m.lookup y).map f := by
  by_cases h : y = x
  · subst h
    rw [if_pos rfl, AList.lookup_insert, Option.map_some]
  · rw [if_neg h, AList.lookup_insert_ne h]

theorem lookup_erase_map {β γ : Type} (m : AList fun _ : String => β) (f : β → γ) (x y : String) :
    ((m.erase x).lookup y).map f = if y = x then none else (m.lookup y).map f := by
  by_cases h : y = x
  · subst h
    rw [if_pos rfl, AList.lookup_erase, Option.map_none]
  · rw [if_neg h, AList.lookup_erase_ne h]

theorem exec_stores_none (he : exec a s ch = some (r, s')) (hnone : a.stores = none) :
    s'.storedDataPlanes = s.storedDataPlanes ∧ s'.storedWorkers = s.storedWorkers ∧
      s'.storedServices = s.storedServices := by
  cases a with
  | receive c =>
    obtain rfl | rfl := exec_receive_state he <;> exact ⟨rfl, rfl, rfl⟩
  | storeDataPlaneInformation | deleteDataPlaneInformation | storeWorkerNodeInformation
  | deleteWorkerNodeInformation | storeServiceInformation | deleteServiceInformation => cases hnone
  | _ =>
    simp only [exec] at he
    repeat' split at he
    all_goals cases he
    all_goals exact ⟨rfl, rfl, rfl⟩

theorem exec_registers_none (he : exec a s ch = some (r, s')) (hnone : a.registers s = none) :
    s'.dataPlaneConnections = s.dataPlaneConnections ∧ s'.niStorage = s.niStorage ∧
      s'.siStorage = s.siStorage := by
  cases a with
  | receive c =>
    obtain rfl | rfl := exec_receive_state he <;> exact ⟨rfl, rfl, rfl⟩
  | setDataPlane | removeDataPlane | setNode | removeNode | setService | removeService =>
    cases hnone
  | _ =>
    simp only [exec] at he
    repeat' split at he
    all_goals cases he
    all_goals exact ⟨rfl, rfl, rfl⟩

/-- **What an action does to the store**, if it is no call without effect. -/
theorem exec_stored (he : exec a s ch = some (r, s'))
    (hok : a.stores ≠ none → ch.takesEffect = true) :
    s'.stored = Change.apply a.stores s.stored := by
  cases a with
  | storeDataPlaneInformation | storeWorkerNodeInformation | storeServiceInformation =>
    simp only [exec, hok (Option.some_ne_none _), if_true] at he
    cases he
    funext k name
    cases k <;> simp [State.stored, Change.apply, Act.stores, lookup_insert_map]
  | deleteDataPlaneInformation | deleteWorkerNodeInformation | deleteServiceInformation =>
    simp only [exec, hok (Option.some_ne_none _), if_true] at he
    cases he
    funext k name
    cases k <;> simp [State.stored, Change.apply, Act.stores, lookup_erase_map]
  | _ =>
    obtain ⟨hdataPlanes, hworkers, hservices⟩ := exec_stores_none he rfl
    funext k name
    cases k
    · exact congrArg (fun m => (AList.lookup name m).map Record.dataPlane) hdataPlanes
    · exact congrArg (fun m => (AList.lookup name m).map Record.worker) hworkers
    · exact congrArg (fun m => (AList.lookup name m).map Record.service) hservices

theorem exec_node_info {n : ℕ} (hn : n < s.nodeCount) (he : exec a s ch = some (r, s')) :
    (s'.nodes n).info = (s.nodes n).info := by
  rcases exec_nodes he with ⟨info, -, -, hnodes⟩ | ⟨-, hkept⟩
  · rw [hnodes, Function.update_of_ne hn.ne]
  · exact (hkept n).info

theorem exec_registered_of_none (hK : Allocated s K) (he : exec a s ch = some (r, s'))
    (hnone : a.registers s = none) : s'.registered = s.registered := by
  obtain ⟨hdataPlanes, hni, hsi⟩ := exec_registers_none he hnone
  funext k name
  cases k with
  | dataPlane => exact congrArg (fun m => (AList.lookup name m).map Record.dataPlane) hdataPlanes
  | worker =>
    show (s'.niStorage.lookup name).map _ = (s.niStorage.lookup name).map _
    rw [hni]
    refine Option.map_congr ?_
    intro n hn
    rw [exec_node_info (hK.node n (hK.niStorage name n hn).1) he]
  | service =>
    show (s'.siStorage.lookup name).map _ = (s.siStorage.lookup name).map _
    rw [hsi]
    refine Option.map_congr ?_
    intro c hc
    rw [(exec_service (hK.service c (hK.siStorage name c hc).1) he).1]

/-- **What an action does to the registry.** -/
theorem exec_registered (hK : Allocated s K) (he : exec a s ch = some (r, s')) :
    s'.registered = Change.apply (a.registers s) s.registered := by
  cases a with
  | setDataPlane info | setNode n =>
    cases he
    funext k name
    cases k <;> simp [State.registered, Change.apply, Act.registers, lookup_insert_map]
  | removeDataPlane ip | removeNode name | removeService name =>
    cases he
    funext k name
    cases k <;> simp [State.registered, Change.apply, Act.registers, lookup_erase_map]
  | setService info b =>
    cases he
    funext k name
    cases k with
    | dataPlane | worker => rfl
    | service =>
      show ((s.siStorage.insert info.name s.serviceCount).lookup name).map _ = _
      by_cases hname : name = info.name
      · subst hname
        simp [Change.apply, Act.registers]
      · have happly : Change.apply (Act.registers s (.setService info b)) s.registered
          .service name =
            s.registered .service name := Change.apply_of_ne fun h => hname h.2
        rw [AList.lookup_insert_ne hname, happly]
        refine Option.map_congr ?_
        intro c hc
        show Record.service (Function.update s.services s.serviceCount _ c).info = _
        rw [Function.update_of_ne (hK.service c (hK.siStorage name c hc).1).ne]
  | _ => exact exec_registered_of_none hK he rfl

end

/-! ## What an operation owes -/

/-- The six operations. -/
def Op.isRegistration : Op → Bool
  | .registerDataplane _ | .deregisterDataplane _ | .registerNode _ | .deregisterNode _
  | .registerService _ | .deregisterService _ => true
  | _ => false

/-- The node that an operation has made, and the change that is in the store and not yet in the
registry. -/
structure Ledger where
  node : Option (ℕ × NodeInfo) := none
  debt : Option Change := none

namespace Ledger

variable (y : Ledger)

/-- An operation registers what it owes. -/
def may : Act → Prop
  | .setDataPlane info => y.debt = some (.dataPlane, info.ip, some (.dataPlane info))
  | .removeDataPlane ip => y.debt = some (.dataPlane, ip, none)
  | .setNode n => ∃ info, y.node = some (n, info) ∧
      y.debt = some (.worker, info.nodeID, some (.worker info))
  | .removeNode name => y.debt = some (.worker, name, none)
  | .setService info _ => y.debt = some (.service, info.name, some (.service info))
  | .removeService name => y.debt = some (.service, name, none)
  | a => a.stores ≠ none → y.debt = none

def after : (a : Act) → a.Ans → Ledger
  | .newNode info, n => { y with node := some (n, info) }
  | .setDataPlane _, _ | .removeDataPlane _, _ | .setNode _, _ | .removeNode _, _
  | .setService _ _, _ | .removeService _, _ => { y with debt := none }
  | a, _ => match a.stores with
    | some c => { y with debt := some c }
    | none => y

end Ledger

/-- The calls to the persistence layer, to data planes and to workers succeed. -/
def succeeding : (a : Act) → a.Ans → Prop
  | .storeDataPlaneInformation _, ok | .deleteDataPlaneInformation _, ok
  | .storeWorkerNodeInformation _, ok | .deleteWorkerNodeInformation _, ok
  | .storeServiceInformation _, ok | .deleteServiceInformation _, ok
  | .initializeDataPlaneConnection _, ok | .addDeployment _ _, ok | .deleteDeployment _ _, ok
  | .connectToWorker _, ok => ok = true
  | .getDataPlaneInformation, list => list ≠ none
  | .getWorkerNodeInformation, list => list ≠ none
  | .getServiceInformation, list => list ≠ none
  | _, _ => True

/-- The operations that change the store and the registry. -/
def registering : Protocol Lock Act Op Act.Ans (Option Ledger) where
  start op := if op.isRegistration then some {} else none
  next x
    | .act a r => x.map fun y => y.after a r
    | _ => x
  guard x l := ∀ y, x = some y → match l with
    | .act a r => y.may a ∧ (a.stores ≠ none → succeeding a r)
    | .sync .unlock l => ∀ c, y.debt = some c → l ≠ c.1.lock
    | .jump _ => False
    | _ => True
  ended x := ∀ y, x = some y → y.debt = none

/-- The action neither changes the store or the registry nor makes a node. -/
def Act.isPlain (a : Act) : Bool :=
  a.stores.isNone && !(a matches .newNode _ | .setDataPlane _ | .removeDataPlane _ | .setNode _
    | .removeNode _ | .setService _ _ | .removeService _)

section

variable {y : Ledger} {a : Act} {α β : Type}

theorem admits_plain (ha : a.isPlain = true) (r : a.Ans) :
    registering.Admits (some y) (.act a r) := by
  have hmay : a.stores = none ∧ y.may a ∧ y.after a r = y := by
    cases a <;> first | exact ⟨rfl, fun h => absurd rfl h, rfl⟩ | cases ha
  refine ⟨?_, congrArg some hmay.2.2⟩
  rintro _ ⟨⟩
  exact ⟨hmay.2.1, fun hstores => absurd hmay.1 hstores⟩

theorem stays_plain (ha : a.isPlain = true) : registering.Stays succeeding (some y) (call a) :=
  stays_perform (admits_plain ha)

variable {l : Lock} {p : Code α} {f : a.Ans → Code β} {v : Option Record}

theorem admits_lockOp {o : LockOp} (h : o = .unlock → ∀ c, y.debt = some c → l ≠ c.1.lock) :
    registering.Admits (some y) (.sync o l) := by
  refine ⟨?_, rfl⟩
  rintro _ ⟨⟩
  cases o with
  | unlock => exact h rfl
  | _ => trivial

theorem stays_locked (h : ∀ c, y.debt = some c → l ≠ c.1.lock)
    (hp : registering.Stays succeeding (some y) p) :
    registering.Stays succeeding (some y) (withLock l p) :=
  stays_withLock (admits_lockOp nofun) (admits_lockOp fun _ => h) hp

/-- The program leaves with no debt. -/
def Pays (y : Ledger) (p : Code α) : Prop :=
  registering.Follows succeeding p (fun _ => registering.ended) (some y)

theorem pays_ret (h : y.debt = none) (v : α) : Pays y (.ret v : Code α) := by
  rintro _ ⟨⟩
  exact h

theorem pays_withLock (hp : Pays y p) : Pays y (withLock l p) := by
  refine Protocol.follows_bind.2 ⟨(admits_lockOp (o := .lock) nofun).1, ?_⟩
  refine Protocol.follows_bind.2 (Follows.mono hp ?_)
  intro v z hz
  refine ⟨?_, hz⟩
  intro y' hy' c hc
  rw [hz y' hy'] at hc
  cases hc

theorem pays_act (hmay : y.may a) (hf : ∀ r, succeeding a r → Pays (y.after a r) (f r)) :
    Pays y (call a >>= f) := by
  refine Protocol.follows_perform.2 ?_
  intro r hr
  refine ⟨?_, hf r hr⟩
  rintro _ ⟨⟩
  exact ⟨hmay, fun _ => hr⟩

theorem pays_plain (ha : a.isPlain = true) (hf : ∀ r, succeeding a r → Pays y (f r)) :
    Pays y (call a >>= f) := by
  refine Protocol.follows_perform.2 ?_
  intro r hr
  refine ⟨(admits_plain ha r).1, ?_⟩
  rw [(admits_plain ha r).2]
  exact hf r hr

/-! ### The six operations -/

theorem stays_singlethreadUpdateEndpoints (c : ℕ) (es : List EndpointInfo) :
    registering.Stays succeeding (some y) (singlethreadUpdateEndpoints c es) := by
  refine (stays_plain rfl).bind fun _ => (stays_plain rfl).bind fun ips => ?_
  refine stays_forM fun ip _ => ?_
  exact (stays_plain rfl).bind fun _ => rfl

theorem stays_addDeployments (ip : String) (cs : List ℕ) :
    registering.Stays succeeding (some y) (addDeployments ip cs) := by
  induction cs with
  | nil => rfl
  | cons c cs ih =>
    refine (stays_plain rfl).bind fun info => ?_
    intro ok hok
    obtain rfl : ok = true := hok
    have hadd : registering.Admits (some y) (.act (.addDeployment ip info.name) true) :=
      admits_plain (a := .addDeployment ip info.name) rfl true
    refine ⟨hadd.1, ?_⟩
    refine (stays_plain rfl).bind fun es => (stays_plain rfl).bind fun infos => ?_
    exact (stays_singlethreadUpdateEndpoints c infos).bind fun _ => ih

theorem pays_registerDataplane (info : DataplaneInfo) : Pays {} (registerDataplane info) := by
  refine pays_withLock (pays_withLock (pays_plain rfl ?_))
  intro present _
  cases present with
  | true => exact pays_ret rfl _
  | false =>
    refine pays_act (fun _ => rfl) ?_
    rintro _ rfl
    refine pays_plain rfl ?_
    rintro _ rfl
    refine pays_act rfl fun _ _ => pays_plain rfl fun cs _ => ?_
    exact (stays_addDeployments info.ip cs).bind fun _ => pays_ret rfl _

theorem pays_deregisterDataplane (info : DataplaneInfo) : Pays {} (deregisterDataplane info) := by
  refine pays_withLock (pays_withLock (pays_plain rfl ?_))
  intro present _
  cases present with
  | false => exact pays_ret rfl _
  | true =>
    refine pays_act (fun _ => rfl) ?_
    rintro _ rfl
    exact pays_act rfl fun _ _ => pays_ret rfl _

theorem pays_registerNode (info : NodeInfo) : Pays {} (registerNode info) := by
  refine pays_act (fun _ => rfl) ?_
  intro wn _
  refine pays_withLock (pays_plain rfl ?_)
  intro node _
  by_cases hnode : node.isSome = true
  · rw [if_pos hnode]
    exact pays_ret rfl _
  · rw [if_neg hnode]
    refine pays_act (fun _ => rfl) ?_
    rintro _ rfl
    refine pays_act ⟨info, rfl, rfl⟩ fun _ _ => ?_
    refine ⟨fun _ _ => trivial, ?_⟩
    exact pays_plain rfl fun _ _ => pays_ret rfl _

theorem stays_removeEndointsAssociatedWithNode (nodeID : String)
    (hy : y.debt = some (.worker, nodeID, v)) :
    registering.Stays succeeding (some y) (removeEndointsAssociatedWithNode nodeID) := by
  have hother : ∀ l : Lock, l ≠ .niStorage → ∀ c, y.debt = some c → l ≠ c.1.lock := by
    intro l hl c hc
    rw [hy] at hc
    cases hc
    exact hl
  refine stays_locked (hother _ nofun) ((stays_plain rfl).bind fun cs => ?_)
  refine stays_forM fun c _ => ?_
  refine Protocol.follows_bind.2 ⟨(admits_lockOp (o := .lock) nofun).1, ?_⟩
  refine (stays_plain rfl).bind fun removed => ?_
  cases removed with
  | none => exact trivial
  | some k =>
    exact Protocol.follows_bind.2 ⟨(admits_lockOp (l := .endpointLock c) fun _ => hother _ nofun).1,
      stays_plain rfl⟩

theorem pays_deregisterNode (nodeID : String) : Pays {} (deregisterNode nodeID) := by
  refine pays_withLock (pays_plain rfl ?_)
  intro node _
  by_cases hnode : node.isSome = true
  · rw [if_pos hnode]
    refine pays_act (fun _ => rfl) ?_
    rintro _ rfl
    refine (stays_removeEndointsAssociatedWithNode nodeID rfl).bind fun _ => ?_
    exact pays_act rfl fun _ _ => pays_ret rfl _
  · rw [if_neg hnode]
    exact pays_ret rfl _

theorem follows_notify {info : ServiceInfo}
    (hy : y.debt = some (.service, info.name, some (.service info)))
    (reconstruct : Bool) : registering.Follows succeeding
      (notifyDataplanesAndStartScalingLoop info reconstruct)
      (fun err z => err = none ∧ z = some { y with debt := none }) (some y) := by
  have hnotify : registering.Stays succeeding (some y) (notifyDataplanes info.name) := by
    refine stays_locked ?_ ((stays_plain rfl).bind fun ips => ?_)
    · intro c hc
      rw [hy] at hc
      cases hc
      exact nofun
    · exact stays_forM fun ip _ => (stays_plain rfl).bind fun _ => rfl
  refine hnotify.bind fun _ => ?_
  intro _ _
  refine ⟨?_, ?_⟩
  · rintro _ ⟨⟩
    exact ⟨hy, fun hstores => absurd rfl hstores⟩
  · refine (stays_plain rfl).bind fun c => ?_
    cases c with
    | none => exact trivial
    | some c => exact ⟨fun _ _ => trivial, rfl, rfl⟩

theorem pays_precreateSnapshots (hy : y.debt = none) (info : ServiceInfo) :
    Pays y (precreateSnapshots info) := by
  refine pays_withLock (pays_plain rfl fun c _ => pays_plain rfl fun ns _ => ?_)
  cases c with
  | none => exact trivial
  | some c => exact ⟨fun _ _ => trivial, pays_ret hy ()⟩

theorem pays_registerService (info : ServiceInfo) : Pays {} (registerService info) := by
  refine pays_withLock (pays_plain rfl ?_)
  intro service _
  by_cases hservice : service.isSome = true
  · rw [if_pos hservice]
    exact pays_ret rfl _
  · rw [if_neg hservice]
    refine pays_act (fun _ => rfl) ?_
    rintro _ rfl
    refine Protocol.follows_bind.2 ((follows_notify rfl false).mono ?_)
    rintro err _ ⟨rfl, rfl⟩
    refine pays_plain rfl ?_
    intro precreate _
    cases precreate with
    | false => exact pays_ret rfl _
    | true =>
      refine Protocol.follows_bind.2 (Follows.mono (pays_precreateSnapshots rfl info) ?_)
      intro _ _ hz
      exact hz

theorem follows_removeServiceFromDataplane {name : String}
    (hy : y.debt = some (.service, name, v)) : registering.Follows succeeding
      (removeServiceFromDataplane name) (fun err z => err = none ∧ z = some y) (some y) := by
  have hdelete : ∀ ips, registering.Follows succeeding (deleteDeployments name ips)
      (fun ok z => ok = true ∧ z = some y) (some y) := by
    intro ips
    induction ips with
    | nil => exact ⟨rfl, rfl⟩
    | cons ip ips ih =>
      intro ok hok
      obtain rfl : ok = true := hok
      have hdelete : registering.Admits (some y) (.act (.deleteDeployment ip name) true) :=
        admits_plain (a := .deleteDeployment ip name) rfl true
      exact ⟨hdelete.1, ih⟩
  refine Protocol.follows_bind.2 ⟨(admits_lockOp (o := .lock) nofun).1, ?_⟩
  refine (stays_plain rfl).bind fun ips => ?_
  refine Protocol.follows_bind.2 ((hdelete ips).mono ?_)
  rintro ok _ ⟨rfl, rfl⟩
  refine ⟨?_, rfl, rfl⟩
  rintro _ ⟨⟩ c hc
  rw [hy] at hc
  cases hc
  exact nofun

theorem pays_deregisterService (name : String) : Pays {} (deregisterService name) := by
  refine pays_withLock (pays_plain rfl ?_)
  intro service _
  cases service with
  | none => exact pays_ret rfl _
  | some c =>
    refine pays_act (fun _ => rfl) ?_
    rintro _ rfl
    refine Protocol.follows_bind.2 ((follows_removeServiceFromDataplane rfl).mono ?_)
    rintro err _ ⟨rfl, rfl⟩
    exact pays_plain rfl fun _ _ => pays_act rfl fun _ _ => pays_ret rfl _

end

/-- Other goroutines owe nothing. -/
theorem follows_none (p : Code Unit) :
    registering.Follows succeeding p (fun _ => registering.ended) none := by
  refine (follows_of_closed (S := fun x => x = none) ?_ (fun _ _ => trivial) rfl).mono ?_
  · rintro _ l rfl
    refine ⟨nofun, ?_⟩
    cases l <;> rfl
  · rintro _ _ rfl
    exact nofun

/-- **All operations pay what they owe.** -/
theorem follows_registering (op : Op) :
    registering.Follows succeeding (body op) (fun _ => registering.ended)
      (registering.start op) := by
  have hignore : ∀ {α : Type} {p : Code α}, Pays {} p →
      Pays {} (p >>= fun _ => (pure () : Code Unit)) := by
    intro α p hp
    exact Protocol.follows_bind.2 (Follows.mono hp fun _ _ hz => hz)
  cases op with
  | registerDataplane info => exact hignore (pays_registerDataplane info)
  | deregisterDataplane info => exact hignore (pays_deregisterDataplane info)
  | registerNode info => exact hignore (pays_registerNode info)
  | deregisterNode nodeID => exact hignore (pays_deregisterNode nodeID)
  | registerService info => exact hignore (pays_registerService info)
  | deregisterService name => exact hignore (pays_deregisterService name)
  | _ => exact follows_none _

/-! ## Store and registry agree, up to debts -/

/-- Under each name the registry has what the store has, or somebody owes the change; what is owed
is in the store. -/
structure Balanced (stored registered : Kind → String → Option Record) (debts : ℕ → Option Change) :
    Prop where
  owed : ∀ i c, debts i = some c → stored c.1 c.2.1 = c.2.2
  agreed : ∀ k name, stored k name = registered k name ∨ ∃ i v, debts i = some (k, name, v)

namespace Balanced

variable {stored registered : Kind → String → Option Record} {debts : ℕ → Option Change} {i : ℕ}
  {c : Change}

/-- A goroutine that owes nothing under a name may owe something else. -/
theorem agreed_update (h : Balanced stored registered debts) {k : Kind} {name : String}
    (hi : ∀ v, debts i ≠ some (k, name, v)) (debt : Option Change) :
    stored k name = registered k name ∨ ∃ j v, Function.update debts i debt j =
      some (k, name, v) := by
  refine (h.agreed k name).imp_right fun ⟨j, v, hj⟩ => ⟨j, v, ?_⟩
  rwa [Function.update_of_ne fun hji : j = i => hi v (hji ▸ hj)]

/-- A change of the store makes a debt. -/
theorem store (h : Balanced stored registered debts) (hi : debts i = none)
    (hothers : ∀ j c', debts j = some c' → c'.1 ≠ c.1) :
    Balanced (Change.apply (some c) stored) registered (Function.update debts i (some c)) := by
  constructor
  · intro j c' hj
    by_cases hji : j = i
    · subst hji
      rw [Function.update_self] at hj
      cases hj
      exact Change.apply_self c stored
    · rw [Function.update_of_ne hji] at hj
      rw [Change.apply_of_ne fun hpos => hothers j c' hj hpos.1]
      exact h.owed j c' hj
  · intro k name
    by_cases hpos : k = c.1 ∧ name = c.2.1
    · obtain ⟨rfl, rfl⟩ := hpos
      exact .inr ⟨i, c.2.2, Function.update_self _ _ _⟩
    · rw [Change.apply_of_ne hpos]
      exact h.agreed_update (by simp [hi]) _

/-- A change of the registry pays a debt. -/
theorem register (h : Balanced stored registered debts) (hi : debts i = some c) :
    Balanced stored (Change.apply (some c) registered) (Function.update debts i none) := by
  constructor
  · intro j c' hj
    by_cases hji : j = i
    · simp [hji] at hj
    · rw [Function.update_of_ne hji] at hj
      exact h.owed j c' hj
  · intro k name
    by_cases hpos : k = c.1 ∧ name = c.2.1
    · obtain ⟨rfl, rfl⟩ := hpos
      rw [Change.apply_self]
      exact .inl (h.owed i c hi)
    · rw [Change.apply_of_ne hpos]
      refine h.agreed_update (fun v hv => hpos ?_) _
      cases Option.some.inj (hi.symm.trans hv)
      exact ⟨rfl, rfl⟩

end Balanced

/-! ## Who may owe -/

/-- The six operations, and what they start. -/
def Op.isServing (op : Op) : Bool :=
  op.isRegistration || (op matches .connectToWorker _ | .precreateSnapshot _ _
    | .scalingControllerLoop _ | .takeLastValue _ _ _ | .createSandbox _ | .drainAndDelete _ _
    | .deleteVictim _)

theorem isServing_of_mayStart {o op : Op} (ho : o.isServing = true) (h : o.mayStart op = true) :
    op.isServing = true ∧ op.isRegistration = false := by
  cases op with
  | connectToWorker | precreateSnapshot | scalingControllerLoop | createSandbox | drainAndDelete
  | deleteVictim => exact ⟨rfl, rfl⟩
  | _ => cases o <;> first | (cases h; done) | cases ho

theorem isServing_of_mayJump {o op : Op} (ho : o.isServing = true) (h : o.mayJump op = true) :
    op.isServing = true ∧ op.isRegistration = false ∧ o.isRegistration = false := by
  cases o with
  | scalingControllerLoop | takeLastValue =>
    cases op with
    | scalingControllerLoop | takeLastValue => exact ⟨rfl, rfl, rfl⟩
    | _ => cases h
  | _ => first | cases h | cases ho

theorem plain_of_may {o : Op} {a : Act} (ho : o.isServing = true) (hop : o.isRegistration = false)
    (hmay : o.may a = true) (s : State) : a.stores = none ∧ a.registers s = none := by
  cases a with
  | storeDataPlaneInformation | deleteDataPlaneInformation | storeWorkerNodeInformation
  | deleteWorkerNodeInformation | storeServiceInformation | deleteServiceInformation
  | setDataPlane | removeDataPlane | setNode | removeNode | setService | removeService =>
    cases o <;> first | (cases hmay; done) | (cases hop; done) | cases ho
  | _ => exact ⟨rfl, rfl⟩

def Lock.isStorage : Lock → Bool
  | .niStorage | .siStorage | .dataPlaneConnections => true
  | _ => false

abbrev registryWatch :
    Protocol Lock Act Op Act.Ans ((Op × List Ref) × (Op × List (Lock × Bool)) × Option Ledger) :=
  known.prod ((locks Lock.isStorage (lockRules Lock.isStorage false)).prod registering)

/-- A goroutine as the protocols see it. -/
abbrev Registrar := Goroutine Op ((Op × List Ref) × (Op × List (Lock × Bool)) × Option Ledger)

namespace Registrar

def debt (g : Registrar) : Option Change := g.code.2.2.bind Ledger.debt

/-- What is so of a goroutine: it is one of those that may run, it holds the lock of the map where
it owes a change, it has made the node that it is to register, and at its end it owes nothing. -/
structure Fair (s : State) (g : Registrar) : Prop where
  serves : g.op.isServing = true
  known : g.code.1.1 = g.op
  locks : g.code.2.1.1 = g.op
  ledger : g.code.2.2.isSome = g.op.isRegistration
  holds : ∀ c, g.debt = some c → (c.1.lock, true) ∈ g.code.2.1.2
  node : ∀ y n info, g.code.2.2 = some y → y.node = some (n, info) →
    n < s.nodeCount ∧ (s.nodes n).info = info
  paid : g.phase = .finished → g.debt = none

end Registrar

section

variable {s s' : Shared Lock State} {i : ℕ} {ch : Choice} {gs new : List Registrar}
  {g g' : Registrar}

variable {d d' : State} {a : Act} {r : a.Ans} {l : Label Lock Act Op Act.Ans} {c : Change}

theorem Registrar.Fair.mono (h : g.Fair d) (hcount : d.nodeCount ≤ d'.nodeCount)
    (hinfo : ∀ n < d.nodeCount, (d'.nodes n).info = (d.nodes n).info) : g.Fair d' := by
  refine ⟨h.serves, h.known, h.locks, h.ledger, h.holds, ?_, h.paid⟩
  intro y n info hy hnode
  obtain ⟨hlt, heq⟩ := h.node y n info hy hnode
  exact ⟨hlt.trans_le hcount, (hinfo n hlt).trans heq⟩

theorem exec_nodeCount (he : exec a d ch = some (r, d')) :
    d.nodeCount ≤ d'.nodeCount := by
  rcases exec_nodes he with ⟨-, -, hcount, -⟩ | ⟨hcount, -⟩
  · rw [hcount]
    exact Nat.le_succ _
  · exact hcount.ge

theorem Registrar.Fair.takesEffect (h : g.Fair d)
    (hguard : registryWatch.guard g.code (.act a r)) (hexec : exec a d ch = some (r, d'))
    (hstores : a.stores ≠ none) : ch.takesEffect = true := by
  obtain ⟨⟨hknown, -⟩, -, hmay⟩ := hguard
  cases hy : g.code.2.2 with
  | none =>
    have hop : g.op.isRegistration = false := by rw [← h.ledger, hy]; rfl
    rw [h.known] at hknown
    exact absurd (plain_of_may h.serves hop hknown d).1 hstores
  | some y =>
    have hr := (hmay y hy).2 hstores
    cases a with
    | storeDataPlaneInformation | deleteDataPlaneInformation | storeWorkerNodeInformation
    | deleteWorkerNodeInformation | storeServiceInformation | deleteServiceInformation =>
      cases hexec
      exact Choice.takesEffect_of_succeeds hr
    | _ => exact absurd rfl hstores

/-- **What an action does to debts**: nothing; or it changes the store and makes a debt, under the
lock; or it registers what is owed. -/
theorem Registrar.Fair.act_cases (h : g.Fair d) (hguard : registryWatch.guard g.code (.act a r)) :
    let debt' :=
      Registrar.debt { g with code := registryWatch.next g.code (.act a r), phase := .ready }
    (a.stores = none ∧ a.registers d = none ∧ debt' = g.debt) ∨
    (∃ c, a.stores = some c ∧ a.registers d = none ∧ g.debt = none ∧ debt' = some c ∧
      (c.1.lock, true) ∈ g.code.2.1.2) ∨
    ∃ c, a.stores = none ∧ a.registers d = some c ∧ g.debt = some c ∧ debt' = none := by
  obtain ⟨⟨hknown, -⟩, ⟨hrules, -⟩, hmay⟩ := hguard
  intro debt'
  cases hy : g.code.2.2 with
  | none =>
    have hop : g.op.isRegistration = false := by rw [← h.ledger, hy]; rfl
    rw [h.known] at hknown
    obtain ⟨hstores, hregisters⟩ := plain_of_may h.serves hop hknown d
    refine .inl ⟨hstores, hregisters, ?_⟩
    show (g.code.2.2.map fun y => y.after a r).bind Ledger.debt = g.code.2.2.bind Ledger.debt
    rw [hy]
    rfl
  | some y =>
    replace hmay : y.may a := (hmay y hy).1
    have hdebt : g.debt = y.debt := by rw [Registrar.debt, hy]; rfl
    have hdebt' : debt' = (y.after a r).debt := by
      show (g.code.2.2.map fun y => y.after a r).bind Ledger.debt = _
      rw [hy]
      rfl
    rw [hdebt, hdebt']
    cases a with
    | storeDataPlaneInformation | deleteDataPlaneInformation | storeWorkerNodeInformation
    | deleteWorkerNodeInformation | storeServiceInformation | deleteServiceInformation =>
      exact .inr (.inl ⟨_, rfl, rfl, hmay nofun, rfl, hrules _ List.mem_cons_self rfl⟩)
    | setDataPlane | removeDataPlane | removeNode | setService | removeService =>
      exact .inr (.inr ⟨_, rfl, rfl, hmay, rfl⟩)
    | setNode n =>
      obtain ⟨info, hnode, howed⟩ := hmay
      refine .inr (.inr ⟨_, rfl, ?_, howed, rfl⟩)
      rw [← (h.node y n info hy hnode).2]
      rfl
    | _ => exact .inl ⟨rfl, rfl, rfl⟩

theorem Registrar.Fair.act (h : g.Fair d) (hguard : registryWatch.guard g.code (.act a r))
    (hexec : exec a d ch = some (r, d')) :
    Registrar.Fair d' { g with code := registryWatch.next g.code (.act a r), phase := .ready } := by
  have hmono := h.mono (exec_nodeCount hexec) fun n hn => exec_node_info hn hexec
  refine ⟨h.serves, h.known, h.locks, ?_, ?_, ?_, nofun⟩
  · show (g.code.2.2.map fun y => y.after a r).isSome = g.op.isRegistration
    rw [Option.isSome_map]
    exact h.ledger
  · intro c hc
    rcases h.act_cases hguard with ⟨-, -, hdebt⟩ | ⟨c', -, -, -, hdebt, hlock⟩ |
      ⟨c', -, -, -, hdebt⟩
    · exact h.holds c (hdebt.symm.trans hc)
    · rw [hdebt] at hc
      cases hc
      exact hlock
    · rw [hdebt] at hc
      cases hc
  · intro y n info hy hnode
    obtain ⟨y', hy', rfl⟩ := Option.map_eq_some_iff.1 hy
    cases a with
    | newNode info' =>
      cases hnode
      cases hexec
      refine ⟨Nat.lt_succ_self _, ?_⟩
      show (Function.update d.nodes d.nodeCount _ d.nodeCount).info = _
      rw [Function.update_self]
    | _ => exact hmono.node y' n info hy' hnode

theorem mem_held_next {x : (Op × List Ref) × (Op × List (Lock × Bool)) × Option Ledger} {p : Lock}
    (hp : (p, true) ∈ x.2.1.2) (hl : l ≠ .sync .unlock p) :
    (p, true) ∈ (registryWatch.next x l).2.1.2 := by
  cases l with
  | sync o l =>
    show (p, true) ∈ if l.isStorage then o.apply l x.2.1.2 else x.2.1.2
    split
    · cases o with
      | lock | rlock => exact List.mem_cons_of_mem _ hp
      | unlock =>
        have hne : l ≠ p := by
          rintro rfl
          exact hl rfl
        exact (List.mem_erase_of_ne fun heq => hne (Prod.mk.inj heq).1.symm).2 hp
      | runlock => exact (List.mem_erase_of_ne fun heq => by cases (Prod.mk.inj heq).2).2 hp
    · exact hp
  | _ => exact hp

theorem Registrar.fair_goroutine {op : Op} (hop : op.isServing = true) (parent : Option ℕ) :
    Registrar.Fair d (registryWatch.goroutine parent op) ∧
      Registrar.debt (registryWatch.goroutine parent op) = none := by
  have hnone : Registrar.debt (registryWatch.goroutine parent op) = none := by
    show (if op.isRegistration then some ({} : Ledger) else none).bind Ledger.debt = none
    split <;> rfl
  refine ⟨⟨hop, rfl, rfl, ?_, by simp [hnone], ?_, nofun⟩, hnone⟩
  · show (if op.isRegistration then some ({} : Ledger) else none).isSome = op.isRegistration
    cases op.isRegistration <;> rfl
  · intro y n info hy hnode
    have hy' : (if op.isRegistration then some ({} : Ledger) else none) = some y := hy
    split at hy'
    · cases hy'
      cases hnode
    · cases hy'

/-- A step that is no action keeps the goroutine fair, and its debts. -/
theorem Registrar.Fair.step (h : g.Fair d) (hguard : registryWatch.guard g.code l)
    (hl : ∀ a r, l ≠ .act a r) :
    Registrar.Fair d { g with code := registryWatch.next g.code l, phase := .ready } ∧
      Registrar.debt { g with code := registryWatch.next g.code l, phase := .ready } = g.debt := by
  have hlocks : (registryWatch.next g.code l).2.1.1 = g.code.2.1.1 := by cases l <;> rfl
  obtain ⟨hknown, hledger⟩ : (registryWatch.next g.code l).1 = g.code.1 ∧
      (registryWatch.next g.code l).2.2 = g.code.2.2 := by
    cases l with
    | act a r => exact absurd rfl (hl a r)
    | _ => exact ⟨rfl, rfl⟩
  have hdebt : (registryWatch.next g.code l).2.2.bind Ledger.debt = g.debt := by rw [hledger]; rfl
  refine ⟨⟨h.serves, ?_, hlocks.trans h.locks, ?_, ?_, ?_, nofun⟩, hdebt⟩
  · show (registryWatch.next g.code l).1.1 = g.op
    rw [hknown]
    exact h.known
  · show (registryWatch.next g.code l).2.2.isSome = g.op.isRegistration
    rw [hledger]
    exact h.ledger
  · intro c hc
    have hc' : g.debt = some c := hdebt.symm.trans hc
    refine mem_held_next (h.holds c hc') ?_
    rintro rfl
    obtain ⟨y, hy, hyc⟩ := Option.bind_eq_some_iff.1 hc'
    exact hguard.2.2 y hy c hyc rfl
  · intro y n info hy
    exact h.node y n info (hledger.symm.trans hy)

theorem Registrar.Fair.wait {phase : Phase} (h : g.Fair d)
    (hended : phase = .finished → registering.ended g.code.2.2) :
    Registrar.Fair d { g with phase := phase } := by
  refine ⟨h.serves, h.known, h.locks, h.ledger, h.holds, h.node, ?_⟩
  intro hfinished
  show g.code.2.2.bind Ledger.debt = none
  cases hy : g.code.2.2 with
  | none => rfl
  | some y => exact hended hfinished y hy

/-- The goroutines are fair, and the store and the registry agree up to what they owe. -/
structure Ledgers (s : Shared Lock State) (gs : List Registrar) : Prop where
  sound : KnownSound s (viewKnown gs)
  booked : Booked Lock.isStorage s.locks (Booked.heldAt (Booked.view gs))
  fair : ∀ g ∈ gs, g.Fair s.data
  balanced : Balanced s.data.stored s.data.registered (modeAt Registrar.debt none gs)
  keyed : ∀ k name v, s.data.stored k name = some v → v.kind = k ∧ v.name = name

/-- Nobody else owes anything where the goroutine holds the lock. -/
theorem Ledgers.kind_ne (h : Ledgers s gs) (hg : gs[i]? = some g)
    (hlock : (c.1.lock, true) ∈ g.code.2.1.2) (hdebt : g.debt = none) {j : ℕ} {c' : Change}
    (hj : modeAt Registrar.debt none gs j = some c') : c'.1 ≠ c.1 := by
  intro hkind
  cases hu : gs[j]? with
  | none =>
    simp [modeAt, hu] at hj
  | some u =>
    rw [modeAt_of_getElem? hu] at hj
    have hheld := (h.fair u (List.mem_of_getElem? hu)).holds c' hj
    have hstorage : c.1.lock.isStorage = true := by cases c.1 <;> rfl
    have heq : j = i := by
      refine h.booked.eq_of_mem (l := c.1.lock) (b := true) hstorage ?_ ?_
      · rw [Booked.heldAt_view hg]
        exact hlock
      · rw [Booked.heldAt_view hu, ← hkind]
        exact hheld
    subst heq
    rw [hg] at hu
    cases hu
    rw [hdebt] at hj
    cases hj

theorem keyed_of_stores {v : Record} (ha : a.stores = some c) (hv : c.2.2 = some v) :
    v.kind = c.1 ∧ v.name = c.2.1 := by
  cases a with
  | storeDataPlaneInformation | storeWorkerNodeInformation | storeServiceInformation =>
    cases ha
    cases hv
    exact ⟨rfl, rfl⟩
  | deleteDataPlaneInformation | deleteWorkerNodeInformation | deleteServiceInformation =>
    cases ha
    cases hv
  | _ => cases ha

theorem Ledgers.act (h : Ledgers s gs) (hg : gs[i]? = some g)
    (hguard : registryWatch.guard g.code (.act a r)) (hexec : exec a s.data ch = some (r, d))
    (hg' : g' = { g with code := registryWatch.next g.code (.act a r), phase := .ready }) :
    Balanced d.stored d.registered (modeAt Registrar.debt none (advance gs i g' [])) ∧
      ∀ k name v, d.stored k name = some v → v.kind = k ∧ v.name = name := by
  obtain ⟨K, hK, -⟩ := h.sound
  have hself : modeAt Registrar.debt none gs i = g.debt := modeAt_of_getElem? hg
  have hfair := h.fair g (List.mem_of_getElem? hg)
  rw [exec_stored hexec (hfair.takesEffect hguard hexec), exec_registered hK hexec,
    modeAt_advance Registrar.debt none hg g' (List.forall_mem_nil _), hg']
  rcases hfair.act_cases hguard with
    ⟨hstores, hregisters, hdebt⟩ | ⟨c, hstores, hregisters, hnone, hdebt, hlock⟩ |
      ⟨c, hstores, hregisters, hsome, hdebt⟩ <;> rw [hstores, hregisters, hdebt]
  · rw [← hself, Function.update_eq_self]
    exact ⟨h.balanced, h.keyed⟩
  · refine ⟨h.balanced.store (hself.trans hnone) fun j c' hj => h.kind_ne hg hlock hnone hj, ?_⟩
    intro k name v hv
    by_cases hpos : k = c.1 ∧ name = c.2.1
    · obtain ⟨rfl, rfl⟩ := hpos
      rw [Change.apply_self] at hv
      exact keyed_of_stores hstores hv
    · rw [Change.apply_of_ne hpos] at hv
      exact h.keyed k name v hv
  · exact ⟨h.balanced.register (hself.trans hsome), h.keyed⟩

/-- **Every move keeps the ledgers.** -/
theorem Ledgers.move (h : Ledgers s gs) (hg : gs[i]? = some g)
    (hm : registryWatch.Moves exec s i g ch s' g' new) :
    Ledgers s' (advance gs i g' new) := by
  have hfair := h.fair g (List.mem_of_getElem? hg)
  have hself : modeAt Registrar.debt none gs i = g.debt := modeAt_of_getElem? hg
  have hsound : KnownSound s' (viewKnown (advance gs i g' new)) := by
    rw [viewKnown, map_advance]
    exact h.sound.move (viewKnown_getElem? hg) hm.fst
  have hnew : ∀ u ∈ new, u.Fair s'.data ∧ u.debt = none := by
    intro u hu
    obtain ⟨-, cs, parent, op, hguard, hop, rfl⟩ := hm.mem_new hu
    have hstart : g.code.1.1.mayStart op = true := by
      rcases hguard with hguard | hguard <;> exact (hguard.1 op hop).1
    rw [hfair.known] at hstart
    exact Registrar.fair_goroutine (isServing_of_mayStart hfair.serves hstart).1 parent
  -- a move that is no action
  have hquiet : s'.data = s.data → g'.Fair s.data → g'.debt = g.debt →
      Ledgers s' (advance gs i g' new) := by
    intro hdata hfair' hdebt
    refine ⟨hsound, h.booked.move_view hg hm, ?_, ?_, ?_⟩
    · refine forall_mem_advance ?_ ?_ fun u hu => (hnew u hu).1 <;> rw [hdata]
      · exact hfair'
      · exact h.fair
    · rw [modeAt_advance Registrar.debt none hg g' fun u hu => (hnew u hu).2, hdebt, ← hself,
        Function.update_eq_self, hdata]
      exact h.balanced
    · rw [hdata]
      exact h.keyed
  rcases hm.act_or_passive with ⟨a, r, hphase, hguard, hexec, hg', rfl⟩ | ⟨hdata, hpassive⟩
  · have hready :
        g' = { g with code := registryWatch.next g.code (.act a r), phase := .ready } := by
      rw [hg', ← hphase]
    obtain ⟨hbalanced, hkeyed⟩ := h.act hg hguard hexec hready
    refine ⟨hsound, h.booked.move_view hg hm, ?_, hbalanced, hkeyed⟩
    refine forall_mem_advance (hready ▸ hfair.act hguard hexec) (fun u hu => ?_)
      (List.forall_mem_nil _)
    exact (h.fair u hu).mono (exec_nodeCount hexec) fun n hn => exec_node_info hn hexec
  rcases hpassive.code_cases with ⟨-, hg', hended⟩ | ⟨l, ⟨hguard, hl⟩, hg', -⟩ |
    ⟨op, -, ⟨hguard, -⟩, hg'⟩
  · refine hquiet hdata ?_ ?_
    · rw [hg']
      exact hfair.wait fun hfinished => (hended hfinished).2.2
    · rw [hg']
      rfl
  · obtain ⟨hfair', hdebt⟩ := hfair.step hguard hl
    have hg'' : g' = { g with code := registryWatch.next g.code l, phase := .ready } := hg'
    rw [← hg''] at hfair' hdebt
    exact hquiet hdata hfair' hdebt
  · have hjump := isServing_of_mayJump hfair.serves (hfair.known ▸ hguard.1.1)
    have hnone : g.debt = none := by
      have hledger := hfair.ledger
      rw [hjump.2.2, Option.isSome_eq_false_iff, Option.isNone_iff_eq_none] at hledger
      rw [Registrar.debt, hledger]
      rfl
    have hstart := Registrar.fair_goroutine (d := s.data) hjump.1 g.parent
    have hg'' : g' = registryWatch.goroutine g.parent op := hg'
    rw [← hg''] at hstart
    exact hquiet hdata hstart.1 (hstart.2.trans hnone.symm)

end

/-! ## Runs -/

/-- A new control plane on an empty store. -/
def FreshEmpty (s : State) : Prop := Fresh s ∧ ∀ k name, s.stored k name = none

/-- The calls to the persistence layer, to data planes and to workers. -/
def Act.isRemote : Act → Bool
  | .storeDataPlaneInformation _ | .deleteDataPlaneInformation _ | .storeWorkerNodeInformation _
  | .deleteWorkerNodeInformation _ | .storeServiceInformation _ | .deleteServiceInformation _
  | .storeEndpoint _ | .getDataPlaneInformation | .getWorkerNodeInformation | .getServiceInformation
  | .setLeader | .initializeDataPlaneConnection _ | .addDeployment _ _ | .deleteDeployment _ _
  | .updateEndpointList _ _ _ | .drainSandbox _ _ _ | .connectToWorker _ | .createSandbox _ _
  | .deleteSandbox _ _ _ | .listEndpoints _ => true
  | _ => false

/-- The step is no such call that fails. -/
def callSucceeds (st : Machine.Step System (Threads.Event Op Choice)) : Bool :=
  match st.event with
  | .start _ => true
  | .run i ch => match st.src.threads[i]?.bind actOf with
    | some a => !a.isRemote || ch.succeeds
    | none => true

theorem succeeding_of_callSucceeds {s s' : System} {i : ℕ} {ch : Choice}
    {t : Goroutine Op (Code Unit)} {a : Act} {k : a.Ans → Code Unit} {r : a.Ans} {d : State}
    (h : callSucceeds ⟨s, .run i ch, s'⟩ = true) (ht : s.threads[i]? = some t)
    (hcode : t.code = .act a k) (he : exec a s.shared.data ch = some (r, d)) : succeeding a r := by
  have hact : actOf t = some a := by rw [actOf, hcode]
  simp only [callSucceeds, ht, Option.bind_some, hact] at h
  cases a with
  | connectToWorker n =>
    simp only [exec] at he
    split at he <;> cases he
    · rfl
    · exact h
  | getDataPlaneInformation | getWorkerNodeInformation | getServiceInformation =>
    replace h : ch.succeeds = true := h
    simp only [exec, h, if_true] at he
    cases he
    exact Option.some_ne_none _
  | storeDataPlaneInformation | deleteDataPlaneInformation | storeWorkerNodeInformation
  | deleteWorkerNodeInformation | storeServiceInformation | deleteServiceInformation
  | initializeDataPlaneConnection | addDeployment | deleteDeployment =>
    cases he
    exact h
  | _ => trivial

theorem follows_registryWatch (op : Op) :
    registryWatch.Follows succeeding (body op) (fun _ => registryWatch.ended)
      (registryWatch.start op) := by
  have hdiscipline : Discipline Lock.isStorage false succeeding :=
    ⟨fun _ _ _ _ hr => hr, .inl fun _ => rfl, nofun, nofun, nofun⟩
  have hknown : known.Follows succeeding (body op) (fun _ => known.ended) (known.start op) :=
    (knows_body op).of_allowed fun _ _ _ => trivial
  exact (hknown.prod ((follows_locks hdiscipline op).prod (follows_registering op))).mono
    fun _ _ hy => hy

theorem ledgers_of_freshEmpty {s : Shared Lock State} (hs : FreshEmpty s.data)
    (hlocks : s.locks = fun _ => {}) : Ledgers s [] := by
  obtain ⟨hfresh, hempty⟩ := hs
  obtain ⟨K, hK⟩ := allocated_of_fresh hfresh
  refine ⟨⟨K, hK, List.forall_mem_nil _⟩, ?_, List.forall_mem_nil _, ⟨nofun, ?_⟩, ?_⟩
  · rw [hlocks]
    exact Booked.init
  · intro k name
    obtain ⟨hdp, hni, hsi, -⟩ := hfresh
    rw [hempty]
    cases k <;> simp [State.registered, hdp, hni, hsi]
  · intro k name v hv
    rw [hempty] at hv
    cases hv

theorem Ledgers.call {s : Shared Lock State} {gs : List Registrar} (h : Ledgers s gs) {op : Op}
    (hop : op.isRegistration = true) : Ledgers s (gs ++ [registryWatch.goroutine none op]) := by
  have hserving : op.isServing = true := by simp [Op.isServing, hop]
  obtain ⟨hfair, hdebt⟩ := Registrar.fair_goroutine (d := s.data) hserving none
  refine ⟨?_, h.booked.call_view op, forall_mem_concat h.fair hfair, ?_, h.keyed⟩
  · rw [viewKnown, List.map_append]
    refine h.sound.call ?_
    cases op <;> first | rfl | cases hop
  · rw [modeAt_append Registrar.debt none hdebt]
    exact h.balanced

/-- **When all calls have returned, the registry is the store**, in every interleaving of any number
of registrations whose calls succeed. -/
theorem registered_eq_stored_of_run {tr : Trace} {s : System}
    (h : (controlPlaneFrom FreshEmpty Op.isRegistration).threads.machine.Run tr s)
    (hok : ∀ st ∈ tr, callSucceeds st = true) (hsettled : Settled Op.isRegistration s) :
    s.shared.data.registered = s.shared.data.stored ∧
      ∀ k name v, s.shared.data.stored k name = some v → v.kind = k ∧ v.name = name := by
  obtain ⟨gs, hsim, hI⟩ := exists_of_run (B := registryWatch) (I := Ledgers)
    (G := fun st => callSucceeds st = true) follows_registryWatch
    (fun s hs => ledgers_of_freshEmpty hs.1 hs.2.1) (fun _ _ _ _ _ _ hop hI => hI.call hop)
    (fun _ _ _ _ _ _ _ _ _ _ hst ht hcode hexec => succeeding_of_callSucceeds hst ht hcode hexec)
    (fun _ _ _ _ _ _ _ _ _ _ _ _ hg hm hI => hI.move hg hm) h hok
  refine ⟨?_, hI.keyed⟩
  funext k name
  rcases hI.balanced.agreed k name with heq | ⟨i, v, hdebt⟩
  · exact heq.symm
  · -- a goroutine that owes something has not finished
    exfalso
    cases hg : gs[i]? with
    | none => simp [modeAt, hg] at hdebt
    | some g =>
      rw [modeAt_of_getElem? hg] at hdebt
      have hfair := hI.fair g (List.mem_of_getElem? hg)
      obtain ⟨t, ht, -, hop, -, hphase⟩ := exists_of_forall₂ (List.Forall₂.flip hsim) hg
      obtain ⟨y, hy, -⟩ := Option.bind_eq_some_iff.1 hdebt
      have hregistration : t.op.isRegistration = true := by
        rw [← hop, ← hfair.ledger, hy]
        rfl
      have hfinished := hsettled t (List.mem_of_getElem? ht) hregistration
      rw [hfair.paid (hphase.trans hfinished)] at hdebt
      cases hdebt

end Dirigent.ControlPlane
