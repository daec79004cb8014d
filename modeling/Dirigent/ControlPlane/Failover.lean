import Dirigent.ControlPlane.Registry

/-!
# The registry after a failover

A new control plane reads the records of the persistence layer and registers them again: the data
planes one after another, each worker node in a goroutine once it is connected, and each service in
a goroutine that the reconstruction waits for.

**Nothing else (`Within`).** Whatever is registered is what the store has, and the store does not
change.

**Nothing is missing (`Covered`).** Once the records of a kind have been read, each of them is
registered, or there is a goroutine that will do so (`Promises`). When all of them have finished,
nothing is promised any more.

* `registered_eq_of_failover` — after a failover the registry is what it was.
-/

namespace Dirigent.ControlPlane

open Prog Protocol Threads

/-! ## What the goroutines of the reconstruction do -/

/-- The goroutine that reads the store, with the kinds that it has read, the records that it has
still to see to and the node that it has made for the first of them; a goroutine for a worker node
or for a service, until it has registered it; or any other goroutine. -/
inductive Restoring
  | main (read : List Kind) (todo : List Record) (node : Option ℕ)
  | worker (n : ℕ)
  | service (info : ServiceInfo)
  | done
  | other

namespace Restoring

def may (x : Restoring) : Act → Prop
  | .getDataPlaneInformation | .getWorkerNodeInformation | .getServiceInformation =>
    ∃ read, x = .main read [] none
  | .setDataPlane info => ∃ read todo, x = .main read (.dataPlane info :: todo) none
  | .newNode info => ∃ read todo, x = .main read (.worker info :: todo) none
  | .setNode n => x = .worker n
  | .setService info _ => x = .service info
  | _ => True

/-- The records have been read. -/
def reads (x : Restoring) (k : Kind) (records : Option (List Record)) : Restoring :=
  match x, records with
  | .main read _ _, some todo => .main (k :: read) todo none
  | x, _ => x

def afterAct (x : Restoring) : (a : Act) → a.Ans → Restoring
  | .getDataPlaneInformation, infos => x.reads .dataPlane (infos.map (List.map .dataPlane))
  | .getWorkerNodeInformation, infos => x.reads .worker (infos.map (List.map .worker))
  | .getServiceInformation, infos => x.reads .service (infos.map (List.map .service))
  | .setDataPlane _, _ => match x with
    | .main read (_ :: todo) node => .main read todo node
    | x => x
  | .newNode _, n => match x with
    | .main read todo _ => .main read todo (some n)
    | x => x
  | .setNode _, _ => match x with
    | .worker _ => .done
    | x => x
  | .setService _ _, _ => match x with
    | .service _ => .done
    | x => x
  | _, _ => x

def after (x : Restoring) : Label Lock Act Op Act.Ans → Restoring
  | .act a r => x.afterAct a r
  | .go _ => match x with
    | .main read (_ :: todo) (some _) => .main read todo none
    | x => x
  | .join _ => match x with
    | .main read _ _ => .main read [] none
    | x => x
  | _ => x

/-- All has been read, and nothing is left to do. -/
def ends (x : Restoring) : Prop :=
  x = .other ∨ x = .done ∨ x = .main [.service, .worker, .dataPlane] [] none

end Restoring

/-- The goroutines of the reconstruction. -/
def restoring : Protocol Lock Act Op Act.Ans Restoring where
  start
    | .reconstructState => .main [] [] none
    | .reconstructWorker n => .worker n
    | .reconstructService info => .service info
    | _ => .other
  next := Restoring.after
  guard x l := x = .other ∨ match l with
    | .act a _ => x.may a
    | .sync _ _ => True
    | .go cs => x = .done ∨
      (∃ read info todo n, x = .main read (.worker info :: todo) (some n) ∧
        cs = [.reconstructWorker n]) ∨
      ∃ read, x = .main read [] none ∧ ∀ op ∈ cs, ∃ e, op = .reconstructEndpoint e
    | .join cs =>
      ∃ (read : List Kind) (infos : List ServiceInfo), x = .main read (infos.map .service) none ∧
      cs = infos.map .reconstructService
    | .jump _ => False
  ended := Restoring.ends

/-- The action does not concern the protocol. -/
def Act.isBystander : Act → Bool
  | .getDataPlaneInformation | .getWorkerNodeInformation | .getServiceInformation | .setDataPlane _
  | .newNode _ | .setNode _ | .setService _ _ => false
  | _ => true

section

variable {x : Restoring} {a : Act} {α : Type}

theorem restoring_admits (ha : a.isBystander = true) (r : a.Ans) :
    restoring.Admits x (.act a r) := by
  constructor
  · refine Or.inr ?_
    cases a <;> trivial
  · show x.afterAct a r = x
    cases a <;> first | rfl | cases ha

theorem restoring_stays (ha : a.isBystander = true) : restoring.Stays succeeding x (call a) :=
  stays_perform (restoring_admits ha)

theorem restoring_admits_sync (o : LockOp) (l : Lock) : restoring.Admits x (.sync o l) :=
  ⟨Or.inr trivial, rfl⟩

theorem restoring_reconstructDataplanes (read : List Kind) (infos : List DataplaneInfo) :
    restoring.Follows succeeding (reconstructDataplanes infos) (fun _ y => y = .main read [] none)
      (.main read (infos.map .dataPlane) none) := by
  induction infos with
  | nil => rfl
  | cons info infos ih =>
    show restoring.Follows succeeding (forM (info :: infos) _) _ _
    rw [List.forM_cons]
    refine Protocol.follows_bind.2 ((restoring_stays rfl).bind fun _ => ?_)
    intro _ _
    exact ⟨Or.inr ⟨read, infos.map .dataPlane, rfl⟩, ih⟩

theorem restoring_reconstructWorkers (read : List Kind) (infos : List NodeInfo) :
    restoring.Follows succeeding (reconstructWorkers infos) (fun _ y => y = .main read [] none)
      (.main read (infos.map .worker) none) := by
  induction infos with
  | nil => rfl
  | cons info infos ih =>
    show restoring.Follows succeeding (forM (info :: infos) _) _ _
    rw [List.forM_cons]
    refine Protocol.follows_bind.2 ?_
    intro n _
    refine ⟨Or.inr ⟨read, infos.map .worker, rfl⟩, ?_⟩
    exact ⟨Or.inr (Or.inr (Or.inl ⟨read, info, infos.map .worker, n, rfl, rfl⟩)), ih⟩

theorem stays_listAllEndpoints (ns : List ℕ) :
    restoring.Stays succeeding x (listAllEndpoints ns) := by
  induction ns with
  | nil => rfl
  | cons n ns ih =>
    refine (restoring_stays rfl).bind fun list => ?_
    cases list with
    | none => exact trivial
    | some es => exact ih.bind fun _ => rfl

theorem stays_reconstructEndpointsState (read : List Kind) :
    restoring.Stays succeeding (.main read [] none) reconstructEndpointsState := by
  refine (restoring_stays rfl).bind fun ns => (stays_listAllEndpoints ns).bind fun es => ?_
  refine ⟨Or.inr (Or.inr (Or.inr ⟨read, rfl, ?_⟩)), rfl⟩
  intro op hop
  obtain ⟨e, -, rfl⟩ := List.mem_map.1 hop
  exact ⟨e, rfl⟩

theorem restoring_reconstructState :
    restoring.Follows succeeding reconstructState (fun _ => Restoring.ends) (.main [] [] none) := by
  intro dataPlanes hdataPlanes
  refine ⟨Or.inr ⟨[], rfl⟩, ?_⟩
  obtain ⟨dataPlanes, rfl⟩ := Option.ne_none_iff_exists'.1 hdataPlanes
  refine (follows_bind (p := reconstructDataplanes dataPlanes)).2
    ((restoring_reconstructDataplanes _ dataPlanes).mono ?_)
  rintro _ _ rfl workers hworkers
  refine ⟨Or.inr ⟨_, rfl⟩, ?_⟩
  obtain ⟨workers, rfl⟩ := Option.ne_none_iff_exists'.1 hworkers
  refine (follows_bind (p := reconstructWorkers workers)).2
    ((restoring_reconstructWorkers _ workers).mono ?_)
  rintro _ _ rfl services hservices
  refine ⟨Or.inr ⟨_, rfl⟩, ?_⟩
  obtain ⟨services, rfl⟩ := Option.ne_none_iff_exists'.1 hservices
  refine ⟨Or.inr ⟨_, services, rfl, rfl⟩, ?_⟩
  refine (stays_reconstructEndpointsState _).bind fun _ =>
    (restoring_stays rfl).bind fun leader => ?_
  cases leader <;> exact Or.inr (Or.inr rfl)

theorem restoring_reconstructWorker (n : ℕ) :
    restoring.Follows succeeding (reconstructWorker n) (fun _ => Restoring.ends) (.worker n) := by
  refine Protocol.follows_perform.2 ?_
  intro connected hconnected
  obtain rfl : connected = true := hconnected
  refine ⟨Or.inr trivial, ⟨Or.inr trivial, ?_⟩⟩
  intro _ _
  exact ⟨Or.inr rfl, Or.inr trivial, Or.inr (Or.inl rfl)⟩

theorem restoring_reconstructService (info : ServiceInfo) :
    restoring.Follows succeeding (reconstructService info) (fun _ => Restoring.ends)
      (.service info) := by
  have hnotify : restoring.Stays succeeding (.service info) (notifyDataplanes info.name) := by
    refine stays_withLock (restoring_admits_sync _ _) (restoring_admits_sync _ _) ?_
    refine (restoring_stays rfl).bind fun ips => ?_
    exact stays_forM fun ip _ => (restoring_stays rfl).bind fun _ => rfl
  refine Protocol.follows_bind.2 ⟨Or.inr trivial, ?_⟩
  refine Protocol.follows_bind.2 (Protocol.follows_bind.2 (hnotify.bind fun _ => ?_))
  intro _ _
  refine ⟨Or.inr rfl, ?_⟩
  refine (restoring_stays rfl).bind fun c => ?_
  cases c with
  | none => exact trivial
  | some c => exact ⟨Or.inr (Or.inl rfl), Or.inr trivial, Or.inr (Or.inl rfl)⟩

/-- **All goroutines follow the protocol.** -/
theorem follows_restoring (op : Op) :
    restoring.Follows succeeding (body op) (fun _ => restoring.ended) (restoring.start op) := by
  have hother : ∀ {p : Code Unit},
      restoring.Follows succeeding p (fun _ => restoring.ended) .other := by
    intro p
    refine (follows_of_closed (S := fun y => y = .other) ?_ (fun _ _ => trivial) rfl).mono
      fun _ y hy => Or.inl hy
    rintro y l rfl
    refine ⟨Or.inl rfl, ?_⟩
    cases l with
    | act a r => cases a <;> rfl
    | _ => rfl
  cases op with
  | reconstructState =>
    exact Protocol.follows_bind.2 (restoring_reconstructState.mono fun _ _ hy => hy)
  | reconstructWorker n => exact restoring_reconstructWorker n
  | reconstructService info => exact restoring_reconstructService info
  | _ => exact hother

end

/-! ## Who runs -/

/-- The goroutines that restore the registry. -/
def Op.isRestoring : Op → Bool
  | .reconstructState | .reconstructWorker _ | .reconstructService _ => true
  | _ => false

/-- These and what they start. -/
def Op.isFailover (op : Op) : Bool :=
  op.isRestoring || (op matches .reconstructEndpoint _ | .scalingControllerLoop _
    | .takeLastValue _ _ _ | .scalingLoop _ | .scalingLoopRound _ | .createSandbox _
    | .drainAndDelete _ _ | .deleteVictim _)

section

variable {o op : Op} {a : Act}

theorem isFailover_of_mayStart (ho : o.isFailover = true) (h : o.mayStart op = true) :
    op.isFailover = true := by
  cases op with
  | scalingControllerLoop | scalingLoop | createSandbox | drainAndDelete | deleteVictim
  | reconstructWorker | reconstructService | reconstructEndpoint => rfl
  | _ => cases o <;> first | (cases h; done) | cases ho

theorem isRestoring_of_mayStart (ho : o ≠ .reconstructState) (h : o.mayStart op = true) :
    op.isRestoring = false := by
  cases op with
  | reconstructState => cases o <;> cases h
  | reconstructWorker | reconstructService =>
    cases o <;> first | (cases h; done) | exact absurd rfl ho
  | _ => rfl

theorem isFailover_of_mayJump (h : o.mayJump op = true) :
    op.isFailover = true ∧ op.isRestoring = false ∧ o.isRestoring = false := by
  cases o with
  | scalingControllerLoop | takeLastValue | scalingLoop | scalingLoopRound =>
    cases op with
    | scalingControllerLoop | takeLastValue | scalingLoop | scalingLoopRound =>
      exact ⟨rfl, rfl, rfl⟩
    | _ => cases h
  | _ => cases h

theorem stores_of_isFailover (ho : o.isFailover = true) (hmay : o.may a = true) :
    a.stores = none := by
  cases a with
  | storeDataPlaneInformation | deleteDataPlaneInformation | storeWorkerNodeInformation
  | deleteWorkerNodeInformation | storeServiceInformation | deleteServiceInformation =>
    cases o <;> first | (cases hmay; done) | cases ho
  | _ => rfl

/-- Only those that restore the registry change it, and they remove nothing. -/
theorem registers_of_isFailover (ho : o.isFailover = true) (hmay : o.may a = true) (s : State) :
    a.registers s = none ∨ o.isRestoring = true ∧
      ((∃ info, a = .setDataPlane info) ∨ (∃ n, a = .setNode n) ∨
        ∃ info b, a = .setService info b) := by
  cases a with
  | setDataPlane | setNode | setService =>
    refine .inr ⟨?_, by simp⟩
    cases o <;> first | rfl | (cases hmay; done) | cases ho
  | removeDataPlane | removeNode | removeService =>
    cases o <;> first | (cases hmay; done) | cases ho
  | _ => exact .inl rfl

end

/-- What a goroutine runs at each stage. -/
def Restoring.Runs : Restoring → Op → Prop
  | .main _ _ _, op => op = .reconstructState
  | .worker n, op => op = .reconstructWorker n
  | .service info, op => op = .reconstructService info
  | .done, op => op ≠ .reconstructState ∧ op.isRestoring = true
  | .other, op => op.isRestoring = false

/-! ## Promises -/

abbrev restoringWatch : Protocol Lock Act Op Act.Ans ((Op × List Ref) × Restoring) :=
  known.prod restoring

/-- A goroutine as the protocols see it. -/
abbrev Restorer := Goroutine Op ((Op × List Ref) × Restoring)

/-- The goroutine will register the record. The one that reads the store leaves it to others to
register services, and waits. -/
def Restoring.promises (d : State) (phase : Phase) (x : Restoring) (v : Record) : Prop :=
  match x with
  | .main _ todo _ => phase ≠ .waiting ∧ v ∈ todo
  | .worker n => v = .worker (d.nodes n).info
  | .service info => v = .service info
  | .done | .other => False

/-- The kinds of records that the goroutine has read. -/
def Restoring.read : Restoring → List Kind
  | .main read _ _ => read
  | _ => []

/-- What is to be registered is what the store `S` has. -/
def Restoring.Valid (S : Kind → String → Option Record) (d : State) : Restoring → Prop
  | .main _ todo node => (∀ v ∈ todo, S v.kind v.name = some v) ∧
      ∀ n, node = some n → n < d.nodeCount ∧ ∃ rest, todo = .worker (d.nodes n).info :: rest
  | .worker n => n < d.nodeCount ∧
      S .worker (d.nodes n).info.nodeID = some (.worker (d.nodes n).info)
  | .service info => S .service info.name = some (.service info)
  | .done | .other => True

namespace Restorer

def Promises (d : State) (g : Restorer) (v : Record) : Prop := g.code.2.promises d g.phase v

def read (g : Restorer) : List Kind := g.code.2.read

/-- What is so of a goroutine. -/
structure Fit (S : Kind → String → Option Record) (d : State) (g : Restorer) : Prop where
  serves : g.op.isFailover = true
  known : g.code.1.1 = g.op
  runs : g.code.2.Runs g.op
  valid : g.code.2.Valid S d
  ended : g.phase = .finished → g.code.2.ends

end Restorer

/-- The records of each kind that has been read are registered, or promised. -/
def Covered (S : Kind → String → Option Record) (d : State) (gs : List Restorer) : Prop :=
  ∀ g ∈ gs, ∀ k ∈ g.read, ∀ name v, S k name = some v →
    d.registered k name = some v ∨ ∃ u ∈ gs, u.Promises d v

section

variable {S : Kind → String → Option Record} {d d' : State} {i : ℕ} {gs new : List Restorer}
  {g g' : Restorer}

/-- **A goroutine moves.** What it promised has been registered, or is promised now. -/
theorem Covered.advance (h : Covered S d gs) (hg : gs[i]? = some g)
    (hregistered : ∀ k name v, S k name = some v → d.registered k name = some v →
      d'.registered k name = some v)
    (hothers : ∀ u ∈ gs, ∀ v, u.Promises d v → u.Promises d' v)
    (hself : ∀ k name v, S k name = some v → g.Promises d v →
      d'.registered k name = some v ∨ g'.Promises d' v ∨ ∃ u ∈ new, u.Promises d' v)
    (hread : ∀ k ∈ g'.read, k ∈ g.read ∨ ∀ name v, S k name = some v → g'.Promises d' v)
    (hnew : ∀ u ∈ new, u.read = []) : Covered S d' (advance gs i g' new) := by
  have hself_mem := mem_advance_self g' new hg
  have htransfer : ∀ u ∈ gs, ∀ k ∈ u.read, ∀ name v, S k name = some v →
      d'.registered k name = some v ∨ ∃ w ∈ Threads.advance gs i g' new, w.Promises d' v := by
    intro u hu k hk name v hv
    rcases h u hu k hk name v hv with hregistered' | ⟨w, hw, hpromise⟩
    · exact .inl (hregistered k name v hv hregistered')
    · obtain ⟨j, hj⟩ := List.getElem?_of_mem hw
      by_cases hji : j = i
      · subst hji
        rw [hg] at hj
        cases hj
        rcases hself k name v hv hpromise with hreg | hpromise' | ⟨w', hw', hpromise'⟩
        · exact .inl hreg
        · exact .inr ⟨g', hself_mem, hpromise'⟩
        · exact .inr ⟨w', List.mem_append_right _ hw', hpromise'⟩
      · exact .inr ⟨w, List.mem_of_getElem? (getElem?_advance_of_ne g' new hj hji),
          hothers w hw v hpromise⟩
  refine forall_mem_advance (fun k hk name v hv => ?_) htransfer fun u hu => by simp [hnew u hu]
  rcases hread k hk with hk | hpromise
  · exact htransfer g (List.mem_of_getElem? hg) k hk name v hv
  · exact .inr ⟨g', hself_mem, hpromise name v hv⟩

variable {x x' : Restoring} {phase : Phase} {v : Record} {op : Op} {cs : List Op} {ch : Choice}
  {a : Act} {r : a.Ans}

theorem Restoring.Valid.mono (h : x.Valid S d) (hcount : d.nodeCount ≤ d'.nodeCount)
    (hinfo : ∀ n < d.nodeCount, (d'.nodes n).info = (d.nodes n).info) : x.Valid S d' := by
  cases x with
  | main read todo node =>
    refine ⟨h.1, ?_⟩
    intro n hn
    obtain ⟨hlt, rest, hrest⟩ := h.2 n hn
    exact ⟨hlt.trans_le hcount, rest, by rwa [hinfo n hlt]⟩
  | worker n => exact ⟨h.1.trans_le hcount, by rw [hinfo n h.1]; exact h.2⟩
  | _ => exact h

theorem Restoring.promises_mono (h : x.Valid S d)
    (hinfo : ∀ n < d.nodeCount, (d'.nodes n).info = (d.nodes n).info) (hv : x.promises d phase v) :
    x.promises d' phase v := by
  cases x with
  | worker n =>
    show v = .worker (d'.nodes n).info
    rw [hinfo n h.1]
    exact hv
  | _ => exact hv

theorem Restoring.promises_phase {phase phase' : Phase} (hphase : phase' ≠ .waiting)
    (hv : x.promises d phase v) : x.promises d phase' v := by
  cases x with
  | main read todo node => exact ⟨hphase, hv.2⟩
  | _ => exact hv

/-! ## Moves that leave the data -/

theorem Restorer.fit_goroutine (hop : op.isFailover = true) (hrestoring : op.isRestoring = false)
    (parent : Option ℕ) : Restorer.Fit S d (restoringWatch.goroutine parent op) ∧
      (restoringWatch.goroutine parent op).code.2 = .other := by
  have hother : restoring.start op = .other := by
    cases op <;> first | rfl | cases hrestoring
  refine ⟨⟨hop, rfl, ?_, ?_, nofun⟩, hother⟩
  · show (restoring.start op).Runs op
    rw [hother]
    exact hrestoring
  · show (restoring.start op).Valid S d
    rw [hother]
    trivial

/-- The goroutine goes on as `g'`: what it promised is promised by `g'` or by one that it starts. -/
structure Restorer.Passes (S : Kind → String → Option Record) (d : State) (g g' : Restorer)
    (new : List Restorer) : Prop where
  fit : g'.Fit S d
  read : g'.read = g.read
  started : ∀ u ∈ new, u.Fit S d ∧ u.read = []
  promises : ∀ v, g.Promises d v → g'.Promises d v ∨ ∃ u ∈ new, u.Promises d v

/-- What a goroutine starts that is not the one that reads the store. -/
theorem Restorer.Fit.start (h : g.Fit S d) (hstage : g.code.2 = .other ∨ g.code.2 = .done)
    (hstart : ∀ op ∈ cs, g.code.1.1.mayStart op = true ∧ op.refs ⊆ g.code.1.2) (parent : Option ℕ) :
    ∀ u ∈ cs.map (restoringWatch.goroutine parent), Restorer.Fit S d u ∧ Restorer.read u = [] := by
  have hop : g.op ≠ .reconstructState := by
    intro hop
    have hruns := h.runs
    rcases hstage with hstage | hstage <;>
      simp [hstage, Restoring.Runs, hop, Op.isRestoring] at hruns
  refine List.forall_mem_map.2 fun op hmem => ?_
  have hmay := (hstart op hmem).1
  rw [h.known] at hmay
  obtain ⟨hfit, hother⟩ := Restorer.fit_goroutine (S := S) (d := d)
    (isFailover_of_mayStart h.serves hmay) (isRestoring_of_mayStart hop hmay) parent
  refine ⟨hfit, ?_⟩
  rw [Restorer.read, hother]
  rfl

theorem Restorer.Fit.stay {y : Op × List Ref} (h : g.Fit S d) (hy : y.1 = g.op)
    (hended : phase = .finished → g.code.2.ends) :
    Restorer.Fit S d { g with code := (y, g.code.2), phase := phase } :=
  ⟨h.serves, hy, h.runs, h.valid, hended⟩

/-- `go`: a worker node is seen to by the goroutine that is started. -/
theorem Restorer.Fit.go (h : g.Fit S d) (hguard : restoringWatch.guard g.code (.go cs)) :
    g.Passes S d { g with code := restoringWatch.next g.code (.go cs), phase := .ready }
      (cs.map (restoringWatch.goroutine none)) := by
  obtain ⟨⟨x, stage⟩, op, parent, phase⟩ := g
  have hruns : stage.Runs op := h.runs
  have hvalid : stage.Valid S d := h.valid
  rcases hguard.2 with rfl | rfl | ⟨read, info, rest, n, rfl, rfl⟩ | ⟨read, rfl, hcs⟩
  · exact ⟨h.stay h.known nofun, rfl, h.start (.inl rfl) hguard.1 none, fun _ hv => .inl hv⟩
  · exact ⟨h.stay h.known nofun, rfl, h.start (.inr rfl) hguard.1 none, fun _ hv => .inl hv⟩
  · obtain ⟨hS, hnode⟩ := hvalid
    obtain ⟨hlt, rest', heq⟩ := hnode n rfl
    obtain ⟨hinfo, rfl⟩ := List.cons.inj heq
    have hworker : S .worker (d.nodes n).info.nodeID = some (.worker (d.nodes n).info) :=
      hS (.worker _) (hinfo ▸ List.mem_cons_self)
    refine ⟨⟨h.serves, h.known, hruns, ⟨?_, nofun⟩, nofun⟩, rfl, ?_, ?_⟩
    · exact fun v hv => hS v (List.mem_cons_of_mem _ hv)
    · exact List.forall_mem_singleton.2 ⟨⟨rfl, rfl, rfl, ⟨hlt, hworker⟩, nofun⟩, rfl⟩
    · rintro v ⟨-, hv⟩
      rcases List.mem_cons.1 hv with rfl | hv
      · exact .inr ⟨_, List.mem_cons_self, hinfo⟩
      · exact .inl ⟨nofun, hv⟩
  · refine ⟨h.stay h.known nofun, rfl, ?_, ?_⟩
    · refine List.forall_mem_map.2 fun op' hmem => ?_
      obtain ⟨e, rfl⟩ := hcs op' hmem
      exact ⟨⟨rfl, rfl, rfl, trivial, nofun⟩, rfl⟩
    · rintro v ⟨-, hv⟩
      cases hv

/-- `join`: the services are seen to by the goroutines that are started. -/
theorem Restorer.Fit.join (h : g.Fit S d) (hguard : restoringWatch.guard g.code (.join cs))
    (parent : Option ℕ) :
    g.Passes S d { g with phase := .waiting } (cs.map (restoringWatch.goroutine parent)) := by
  obtain ⟨⟨x, stage⟩, op, parent', phase⟩ := g
  have hvalid : stage.Valid S d := h.valid
  rcases hguard.2 with rfl | ⟨read, infos, rfl, rfl⟩
  · exact ⟨h.stay h.known nofun, rfl, h.start (.inl rfl) hguard.1 parent, fun _ hv => .inl hv⟩
  · refine ⟨h.stay h.known nofun, rfl, ?_, ?_⟩
    · refine List.forall_mem_map.2 (List.forall_mem_map.2 fun info hinfo => ?_)
      exact ⟨⟨rfl, rfl, rfl, hvalid.1 _ (List.mem_map_of_mem hinfo), nofun⟩, rfl⟩
    · rintro v ⟨-, hv⟩
      obtain ⟨info, hinfo, rfl⟩ := List.mem_map.1 hv
      exact .inr ⟨_, List.mem_map_of_mem (List.mem_map_of_mem hinfo), rfl⟩

theorem Restorer.Fit.joined (h : g.Fit S d) (hguard : restoringWatch.guard g.code (.join cs))
    (hphase : g.phase = .waiting) :
    g.Passes S d { g with code := restoringWatch.next g.code (.join cs), phase := .ready } [] := by
  obtain ⟨⟨x, stage⟩, op, parent, phase⟩ := g
  have hruns : stage.Runs op := h.runs
  rcases hguard.2 with rfl | ⟨read, infos, rfl, rfl⟩
  · exact ⟨h.stay h.known nofun, rfl, List.forall_mem_nil _, fun _ hv => .inl hv⟩
  · refine ⟨⟨h.serves, h.known, hruns, ⟨List.forall_mem_nil _, nofun⟩, nofun⟩, rfl,
      List.forall_mem_nil _, ?_⟩
    rintro v ⟨hwaiting, -⟩
    exact absurd hphase hwaiting

/-- **A move that leaves the data leaves no promise unkept.** -/
theorem Restorer.Fit.move {s s' : Shared Lock State} (h : g.Fit S d)
    (hm : restoringWatch.passive.Moves exec s i g ch s' g' new) : g.Passes S d g' new := by
  have hphased : ∀ phase : Phase, phase ≠ .waiting → ∀ v, g.Promises d v →
      g.code.2.promises d phase v := fun _ hne v hv => Restoring.promises_phase hne hv
  cases hm with
  | finish _ hended =>
    exact ⟨h.stay h.known fun _ => hended.2, rfl, List.forall_mem_nil _,
      fun v hv => .inl (hphased .finished nofun v hv)⟩
  | act _ hguard _ => exact absurd rfl (hguard.2 _ _)
  | announce =>
    exact ⟨h.stay h.known nofun, rfl, List.forall_mem_nil _,
      fun v hv => .inl (hphased .announced nofun v hv)⟩
  | acquire =>
    exact ⟨h.stay h.known nofun, rfl, List.forall_mem_nil _,
      fun v hv => .inl (hphased .ready nofun v hv)⟩
  | unlock hp | rlock hp | runlock hp =>
    refine ⟨h.stay h.known fun hfinished => ?_, rfl, List.forall_mem_nil _, fun v hv => .inl hv⟩
    exact h.ended hfinished
  | go hp hguard =>
    have hgo := h.go hguard.1
    rw [← hp] at hgo
    exact hgo
  | join hp hguard => exact h.join hguard.1 (some i)
  | joined hp hguard => exact h.joined hguard.1 hp
  | @jump op hp hguard =>
    obtain ⟨hknown, hstage⟩ := hguard.1
    rcases hstage with hother | hfalse
    · obtain ⟨hfailover, hrestoring, -⟩ := isFailover_of_mayJump hknown.1
      obtain ⟨hfit, hother'⟩ :=
        Restorer.fit_goroutine (S := S) (d := d) hfailover hrestoring g.parent
      refine ⟨⟨hfailover, hfit.known, hfit.runs, hfit.valid, ?_⟩, ?_, List.forall_mem_nil _, ?_⟩
      · intro hfinished
        rw [hp] at hfinished
        cases hfinished
      · show (restoring.start op).read = g.code.2.read
        rw [hother]
        exact congrArg Restoring.read hother'
      · intro v hv
        rw [Restorer.Promises, hother] at hv
        cases hv
    · cases hfalse

/-! ## Actions -/

theorem mem_map_walkValues {β : Type} {m : AList fun _ : String => β} {f : β → Record} :
    v ∈ (walkValues m ch).map f ↔ ∃ name, (m.lookup name).map f = some v := by
  constructor
  · intro hv
    obtain ⟨b, hb, rfl⟩ := List.mem_map.1 hv
    obtain ⟨name, hname⟩ := mem_walkValues.1 hb
    exact ⟨name, by rw [hname, Option.map_some]⟩
  · rintro ⟨name, hname⟩
    obtain ⟨b, hb, rfl⟩ := Option.map_eq_some_iff.1 hname
    exact List.mem_map_of_mem (mem_walkValues.2 ⟨name, hb⟩)

theorem exec_reads (read : List Kind) (he : exec a d ch = some (r, d'))
    (ha : a = .getDataPlaneInformation ∨ a = .getWorkerNodeInformation ∨
      a = .getServiceInformation) :
    d' = d ∧ a.registers d = none ∧
      ((Restoring.main read [] none).afterAct a r = .main read [] none ∨
        ∃ k records, (Restoring.main read [] none).afterAct a r = .main (k :: read) records none ∧
          ∀ v, v ∈ records ↔ ∃ name, d.stored k name = some v) := by
  rcases ha with rfl | rfl | rfl
  all_goals
    simp only [exec] at he
    cases he
    refine ⟨rfl, rfl, ?_⟩
    cases ch.succeeds with
    | false => exact .inl rfl
    | true => exact .inr ⟨_, _, rfl, fun _ => mem_map_walkValues⟩

/-- The stage after an action, and what the action registers. -/
structure Restoring.Acts (S : Kind → String → Option Record) (d d' : State) (a : Act) (op : Op)
    (x x' : Restoring) : Prop where
  valid : x'.Valid S d'
  runs : x'.Runs op
  read : ∀ k ∈ x'.read, k ∈ x.read ∨ ∀ name v, S k name = some v → x'.promises d' .ready v
  kept : (a.registers d = none ∧ ∀ v, x.promises d .ready v → x'.promises d' .ready v) ∨
    ∃ v, a.registers d = some (v.kind, v.name, some v) ∧ S v.kind v.name = some v ∧
      ∀ w, x.promises d .ready w → w = v ∨ x'.promises d' .ready w

theorem Restoring.acts_aside (hvalid : x.Valid S d) (hruns : x.Runs op)
    (he : exec a d ch = some (r, d')) (hnone : a.registers d = none) (hx : x' = x) :
    Restoring.Acts S d d' a op x x' := by
  have hinfo : ∀ n < d.nodeCount, (d'.nodes n).info = (d.nodes n).info :=
    fun n hn => exec_node_info hn he
  subst hx
  exact ⟨hvalid.mono (exec_nodeCount he) hinfo, hruns, fun _ hk => .inl hk,
    .inl ⟨hnone, fun _ hv => Restoring.promises_mono hvalid hinfo hv⟩⟩

/-- **What an action does.** It changes nothing here, reads a kind of records, makes a node, or
registers a record that was promised. -/
theorem Restorer.Fit.act (h : g.Fit S d) (hS : d.stored = S)
    (hkeyed : ∀ k name v, S k name = some v → v.kind = k ∧ v.name = name)
    (hguard : restoringWatch.guard g.code (.act a r)) (he : exec a d ch = some (r, d')) :
    Restoring.Acts S d d' a g.op g.code.2 (restoring.next g.code.2 (.act a r)) := by
  obtain ⟨⟨x, stage⟩, op, parent, phase⟩ := g
  have hruns : stage.Runs op := h.runs
  have hvalid : stage.Valid S d := h.valid
  obtain ⟨⟨hmay, -⟩, hstage⟩ := hguard
  rw [h.known] at hmay
  have hother : op.isRestoring = false → a.registers d = none := by
    intro hrestoring
    rcases registers_of_isFailover h.serves hmay d with hnone | ⟨hrestoring', -⟩
    · exact hnone
    · rw [show op.isRestoring = true from hrestoring'] at hrestoring
      cases hrestoring
  rcases hstage with rfl | hstage
  · refine Restoring.acts_aside hvalid hruns he (hother hruns) ?_
    cases a <;> rfl
  cases a with
  | getDataPlaneInformation | getWorkerNodeInformation | getServiceInformation =>
    obtain ⟨read, rfl⟩ := hstage
    obtain ⟨rfl, hnone, hsame | ⟨k, records, hstage', hrecords⟩⟩ :=
      exec_reads read he (by simp)
    · exact Restoring.acts_aside hvalid hruns he hnone hsame
    · have hread : restoring.next (.main read [] none) (.act _ r) =
        .main (k :: read) records none := hstage'
      rw [hread]
      subst hS
      refine ⟨⟨?_, nofun⟩, hruns, ?_, .inl ⟨hnone, fun v hv => by cases hv.2⟩⟩
      · intro v hv
        obtain ⟨name, hname⟩ := (hrecords v).1 hv
        obtain ⟨hkind, hname'⟩ := hkeyed k name v hname
        rw [hkind, hname']
        exact hname
      · intro k' hk'
        rcases List.mem_cons.1 hk' with rfl | hk'
        · exact .inr fun name v hv => ⟨nofun, (hrecords v).2 ⟨name, hv⟩⟩
        · exact .inl hk'
  | newNode info =>
    obtain ⟨read, rest, rfl⟩ := hstage
    cases he
    refine ⟨⟨hvalid.1, ?_⟩, hruns, fun _ hk => .inl hk, .inl ⟨rfl, fun _ hv => hv⟩⟩
    intro n hn
    cases hn
    refine ⟨Nat.lt_succ_self _, rest, ?_⟩
    show _ = Record.worker (Function.update d.nodes d.nodeCount _ d.nodeCount).info :: rest
    rw [Function.update_self]
  | setDataPlane info =>
    obtain ⟨read, rest, rfl⟩ := hstage
    refine ⟨⟨fun v hv => hvalid.1 v (List.mem_cons_of_mem _ hv), nofun⟩, hruns, fun _ hk => .inl hk,
      .inr ⟨.dataPlane info, rfl, hvalid.1 _ List.mem_cons_self, ?_⟩⟩
    rintro w ⟨-, hw⟩
    rcases List.mem_cons.1 hw with rfl | hw
    · exact .inl rfl
    · exact .inr ⟨nofun, hw⟩
  | setNode n =>
    obtain rfl : stage = .worker n := hstage
    refine ⟨trivial, ?_, fun _ hk => .inl hk,
      .inr ⟨.worker (d.nodes n).info, rfl, hvalid.2, fun _ hw => .inl hw⟩⟩
    obtain rfl : op = .reconstructWorker n := hruns
    exact ⟨nofun, rfl⟩
  | setService info b =>
    obtain rfl : stage = .service info := hstage
    refine ⟨trivial, ?_, fun _ hk => .inl hk,
      .inr ⟨.service info, rfl, hvalid, fun _ hw => .inl hw⟩⟩
    obtain rfl : op = .reconstructService info := hruns
    exact ⟨nofun, rfl⟩
  | removeDataPlane | removeNode | removeService =>
    rcases registers_of_isFailover h.serves hmay d with hnone | ⟨-, ⟨_, ha⟩ | ⟨_, ha⟩ | ⟨_, _, ha⟩⟩
    · cases hnone
    all_goals cases ha
  | _ => exact Restoring.acts_aside hvalid hruns he rfl rfl

/-! ## The registry during the reconstruction -/

/-- The store stays, what is registered is what it has, and what has been read is registered or
promised. -/
structure Rebuilt (S : Kind → String → Option Record) (s : Shared Lock State) (gs : List Restorer) :
    Prop where
  sound : KnownSound s (viewKnown gs)
  stored : s.data.stored = S
  within : ∀ k name v, s.data.registered k name = some v → S k name = some v
  fit : ∀ g ∈ gs, g.Fit S s.data
  covered : Covered S s.data gs

theorem Restoring.Acts.registered (h : Restoring.Acts S d d' a op x x')
    (hregistered : d'.registered = Change.apply (a.registers d) d.registered) (k : Kind)
    (name : String) :
    d'.registered k name = d.registered k name ∨ d'.registered k name = S k name := by
  rcases h.kept with ⟨hnone, -⟩ | ⟨v, hsome, hS, -⟩
  · rw [hregistered, hnone]
    exact .inl rfl
  · rw [hregistered, hsome]
    by_cases hpos : k = v.kind ∧ name = v.name
    · obtain ⟨rfl, rfl⟩ := hpos
      rw [hS]
      exact .inr (Change.apply_self (v.kind, v.name, some v) d.registered)
    · exact .inl (Change.apply_of_ne hpos)

section

variable {s s' : Shared Lock State} {ch : Choice}

/-- **An action keeps the invariant.** -/
theorem Rebuilt.act {a : Act} {r : a.Ans} (h : Rebuilt S s gs)
    (hkeyed : ∀ k name v, S k name = some v → v.kind = k ∧ v.name = name) (hg : gs[i]? = some g)
    (hphase : g.phase = .ready) (hguard : restoringWatch.guard g.code (.act a r))
    (he : exec a s.data ch = some (r, d'))
    (hg' : g' = { g with code := restoringWatch.next g.code (.act a r) }) :
    d'.stored = S ∧ (∀ k name v, d'.registered k name = some v → S k name = some v) ∧
      (∀ u ∈ advance gs i g' [], Restorer.Fit S d' u) ∧
      Covered S d' (advance gs i g' []) := by
  have hfit := h.fit g (List.mem_of_getElem? hg)
  have hacts := hfit.act h.stored hkeyed hguard he
  have hmay : g.op.may a = true := hfit.known ▸ hguard.1.1
  have hstores := stores_of_isFailover hfit.serves hmay
  have hinfo : ∀ n < s.data.nodeCount, (d'.nodes n).info = (s.data.nodes n).info :=
    fun n hn => exec_node_info hn he
  obtain ⟨K, hK, -⟩ := h.sound
  have hregistered := exec_registered hK he
  have hpromises : ∀ v, (restoring.next g.code.2 (.act a r)).promises d' .ready v →
      g'.Promises d' v := by
    intro v hv
    rw [Restorer.Promises, hg', hphase]
    exact hv
  refine ⟨?_, ?_, ?_, ?_⟩
  · rw [exec_stored he fun hne => absurd hstores hne, hstores]
    exact h.stored
  · intro k name v hv
    rcases hacts.registered hregistered k name with heq | heq
    · exact h.within k name v (heq.symm.trans hv)
    · exact heq.symm.trans hv
  · refine forall_mem_advance ?_ (fun u hu => ?_) (List.forall_mem_nil _)
    · rw [hg']
      exact ⟨hfit.serves, hfit.known, hacts.runs, hacts.valid,
        fun hfinished => nomatch hphase.symm.trans hfinished⟩
    · have hfit' := h.fit u hu
      exact ⟨hfit'.serves, hfit'.known, hfit'.runs,
        hfit'.valid.mono (exec_nodeCount he) hinfo, hfit'.ended⟩
  · refine h.covered.advance hg ?_ ?_ ?_ ?_ (List.forall_mem_nil _)
    · intro k name v hv hreg
      rcases hacts.registered hregistered k name with heq | heq
      · exact heq.trans hreg
      · exact heq.trans hv
    · exact fun u hu v hv => Restoring.promises_mono (h.fit u hu).valid hinfo hv
    · intro k name v hv hpromise
      rw [Restorer.Promises, hphase] at hpromise
      rcases hacts.kept with ⟨-, hkept⟩ | ⟨v', hsome, -, hkept⟩
      · exact .inr (.inl (hpromises v (hkept v hpromise)))
      · rcases hkept v hpromise with rfl | hpromise'
        · obtain ⟨rfl, rfl⟩ := hkeyed k name v hv
          left
          rw [hregistered, hsome]
          exact Change.apply_self (v.kind, v.name, some v) s.data.registered
        · exact .inr (.inl (hpromises v hpromise'))
    · intro k hk
      rw [hg'] at hk
      rcases hacts.read k hk with hk | hall
      · exact .inl hk
      · exact .inr fun name v hv => hpromises v (hall name v hv)

/-- **Every move keeps the invariant.** -/
theorem Rebuilt.move (h : Rebuilt S s gs)
    (hkeyed : ∀ k name v, S k name = some v → v.kind = k ∧ v.name = name) (hg : gs[i]? = some g)
    (hm : restoringWatch.Moves exec s i g ch s' g' new) :
    Rebuilt S s' (advance gs i g' new) := by
  have hsound : KnownSound s' (viewKnown (advance gs i g' new)) := by
    rw [viewKnown, map_advance]
    exact h.sound.move (viewKnown_getElem? hg) hm.fst
  rcases hm.act_or_passive with ⟨a, r, hphase, hguard, hexec, hg', rfl⟩ | ⟨hdata, hpassive⟩
  · obtain ⟨hstored, hwithin, hfit, hcovered⟩ := h.act hkeyed hg hphase hguard hexec hg'
    exact ⟨hsound, hstored, hwithin, hfit, hcovered⟩
  · obtain ⟨hfit, hread, hnew, hpromises⟩ := (h.fit g (List.mem_of_getElem? hg)).move hpassive
    refine ⟨hsound, ?_, ?_, ?_, ?_⟩ <;> rw [hdata]
    · exact h.stored
    · exact h.within
    · exact forall_mem_advance hfit h.fit fun u hu => (hnew u hu).1
    · refine h.covered.advance hg (fun _ _ _ _ hreg => hreg) (fun _ _ _ hv => hv) ?_ ?_
        fun u hu => (hnew u hu).2
      · exact fun _ _ v _ hv => .inr (hpromises v hv)
      · intro k hk
        rw [hread] at hk
        exact .inl hk

theorem Rebuilt.call (h : Rebuilt S s gs) :
    Rebuilt S s (gs ++ [restoringWatch.goroutine none .reconstructState]) := by
  refine ⟨?_, h.stored, h.within,
    forall_mem_concat h.fit ⟨rfl, rfl, rfl, ⟨List.forall_mem_nil _, by simp⟩,
      Phase.noConfusion⟩,
    forall_mem_concat (fun u hu k hk name v hv => ?_) (List.forall_mem_nil _)⟩
  · rw [viewKnown, List.map_append]
    exact h.sound.call rfl
  · rcases h.covered u hu k hk name v hv with hreg | ⟨w, hw, hpromise⟩
    · exact .inl hreg
    · exact .inr ⟨w, List.mem_append_left _ hw, hpromise⟩

theorem rebuilt_of_fresh (hfresh : Fresh s.data) (hS : s.data.stored = S) : Rebuilt S s [] := by
  obtain ⟨K, hK⟩ := allocated_of_fresh hfresh
  refine ⟨⟨K, hK, List.forall_mem_nil _⟩, hS, ?_, List.forall_mem_nil _, List.forall_mem_nil _⟩
  intro k name v hv
  obtain ⟨hdp, hni, hsi, -⟩ := hfresh
  cases k <;> simp [State.registered, hdp, hni, hsi] at hv

theorem Restorer.Fit.isRestoring {v : Record} (h : g.Fit S d) (hv : g.Promises d v) :
    g.op.isRestoring = true := by
  obtain ⟨⟨x, stage⟩, op, parent, phase⟩ := g
  have hruns : stage.Runs op := h.runs
  cases stage with
  | main | worker | service =>
    show op.isRestoring = true
    rw [show op = _ from hruns]
    rfl
  | done | other => cases hv

theorem Restorer.Fit.not_promises (h : g.Fit S d) (hfinished : g.phase = .finished) (v : Record) :
    ¬g.Promises d v := by
  intro hv
  rcases h.ended hfinished with heq | heq | heq <;> rw [Restorer.Promises, heq] at hv
  · cases hv
  · cases hv
  · cases hv.2

/-- The goroutine that reads the store has read all of it when it has finished. -/
theorem Restorer.Fit.mem_read (h : g.Fit S d) (hop : g.op = .reconstructState)
    (hfinished : g.phase = .finished) (k : Kind) : k ∈ g.read := by
  have hruns := h.runs
  rcases h.ended hfinished with heq | heq | heq
  · rw [heq, hop] at hruns
    cases hruns
  · rw [heq] at hruns
    exact absurd hop hruns.1
  · rw [Restorer.read, heq]
    cases k <;> simp [Restoring.read]

end

end

/-! ## Runs -/

/-- A new control plane on a store with the records `S`, that runs `ReconstructState`. -/
def failover (S : Kind → String → Option Record) : Lang Lock Act Op Act.Ans State Choice :=
  controlPlaneFrom (fun d => Fresh d ∧ d.stored = S) fun op => decide (op = .reconstructState)

/-- **When the reconstruction has finished, the registry is the store.** -/
theorem registered_eq_of_failover_run {S : Kind → String → Option Record} {tr : Trace} {s : System}
    (hkeyed : ∀ k name v, S k name = some v → v.kind = k ∧ v.name = name)
    (h : (failover S).threads.machine.Run tr s) (hok : ∀ st ∈ tr, callSucceeds st = true)
    (hstate : ∃ t ∈ s.threads, t.op = .reconstructState) (hsettled : Settled Op.isRestoring s) :
    s.shared.data.registered = S := by
  have hbody : ∀ op, restoringWatch.Follows succeeding (body op) (fun _ => restoringWatch.ended)
      (restoringWatch.start op) := by
    intro op
    have hknown : known.Follows succeeding (body op) (fun _ => known.ended) (known.start op) :=
      (knows_body op).of_allowed fun _ _ _ => trivial
    exact (hknown.prod (follows_restoring op)).mono fun _ _ hy => hy
  have hinit : ∀ s, (failover S).threads.init s → Rebuilt S s [] :=
    fun s hs => rebuilt_of_fresh hs.1.1 hs.1.2
  have hcall : ∀ op, (failover S).entry op = true → op = .reconstructState :=
    fun op hop => of_decide_eq_true hop
  obtain ⟨gs, hsim, hI⟩ := exists_of_run (B := restoringWatch) (I := Rebuilt S)
    (G := fun st => callSucceeds st = true) hbody hinit
    (fun _ _ _ op _ _ hop hI => hcall op hop ▸ hI.call)
    (fun _ _ _ _ _ _ _ _ _ _ hst ht hcode hexec => succeeding_of_callSucceeds hst ht hcode hexec)
    (fun _ _ _ _ _ _ _ _ _ _ _ _ hg hm hI => hI.move hkeyed hg hm) h hok
  have hfinished : ∀ g ∈ gs, g.op.isRestoring = true → g.phase = .finished := by
    intro g hg hop
    obtain ⟨i, hi⟩ := List.getElem?_of_mem hg
    obtain ⟨t, ht, -, hop', -, hphase⟩ := exists_of_forall₂ (List.Forall₂.flip hsim) hi
    rw [hphase]
    exact hsettled t (List.mem_of_getElem? ht) (hop' ▸ hop)
  obtain ⟨t, ht, hop⟩ := hstate
  obtain ⟨i, hi⟩ := List.getElem?_of_mem ht
  obtain ⟨g, hg, -, hop', -⟩ := exists_of_forall₂ hsim hi
  have hmem := List.mem_of_getElem? hg
  have hstate : g.op = .reconstructState := hop'.trans hop
  have hdone := hfinished g hmem (by rw [hstate]; rfl)
  funext k name
  cases hS : S k name with
  | none =>
    refine Option.eq_none_iff_forall_ne_some.2 ?_
    intro v hv
    rw [hI.within k name v hv] at hS
    cases hS
  | some v =>
    have hread := (hI.fit g hmem).mem_read hstate hdone k
    rcases hI.covered g hmem k hread name v hS with hreg | ⟨u, hu, hpromise⟩
    · exact hreg
    · have hfit := hI.fit u hu
      exact absurd hpromise (hfit.not_promises (hfinished u hu (hfit.isRestoring hpromise)) v)

/-- **After a failover the registry is what it was**: whatever data planes, nodes and services have
been registered and deregistered, and however the goroutines of both control planes interleave. -/
theorem registered_eq_of_failover {tr tr' : Trace} {s s' : System}
    (h : (controlPlaneFrom FreshEmpty Op.isRegistration).threads.machine.Run tr s)
    (hok : ∀ st ∈ tr, callSucceeds st = true) (hsettled : Settled Op.isRegistration s)
    (h' : (failover s.shared.data.stored).threads.machine.Run tr' s')
    (hok' : ∀ st ∈ tr', callSucceeds st = true)
    (hstate : ∃ t ∈ s'.threads, t.op = .reconstructState) (hsettled' : Settled Op.isRestoring s') :
    s'.shared.data.registered = s.shared.data.registered := by
  obtain ⟨hregistered, hkeyed⟩ := registered_eq_stored_of_run h hok hsettled
  rw [hregistered]
  exact registered_eq_of_failover_run hkeyed h' hok' hstate hsettled'

/-- A control plane on a store with a data plane, a node and a service. -/
def storedThree : State :=
  { newControlPlane false false with
    storedDataPlanes := AList.insert "10.0.0.1" ⟨"10.0.0.1", 8081, 8080⟩ ∅
    storedWorkers := AList.insert "w" ⟨"w", "10.0.0.2", 10010, 4, 1024⟩ ∅
    storedServices := AList.insert "f" ⟨"f", "image", 1, 1⟩ ∅ }

/-- A data plane, a node and a service are registered, and restored. -/
theorem registered_eq_of_failover_three : ∃ tr s tr' s',
    (controlPlaneFrom FreshEmpty Op.isRegistration).threads.machine.Run tr s ∧
    (failover s.shared.data.stored).threads.machine.Run tr' s' ∧
    (∀ k, ∃ name v, s.shared.data.registered k name = some v) ∧
    s'.shared.data.registered = s.shared.data.registered := by
  obtain ⟨tr, s, hrun, hok, hsettled, hdataPlanes, hworkers, hservices⟩ : ∃ tr s,
      (controlPlaneFrom FreshEmpty Op.isRegistration).threads.machine.Run tr s ∧
      (∀ st ∈ tr, callSucceeds st = true) ∧
      (∀ t ∈ s.threads, t.op.isRegistration = true → t.phase = .finished) ∧
      s.shared.data.storedDataPlanes.entries = storedThree.storedDataPlanes.entries ∧
      s.shared.data.storedWorkers.entries = storedThree.storedWorkers.entries ∧
      s.shared.data.storedServices.entries = storedThree.storedServices.entries :=
    Machine.exists_run_of_play (.start (.registerDataplane ⟨"10.0.0.1", 8081, 8080⟩) ::
      List.replicate 12 (.run 0 .ok) ++ .start (.registerNode ⟨"w", "10.0.0.2", 10010, 4, 1024⟩) ::
      List.replicate 10 (.run 1 .ok) ++ .start (.registerService ⟨"f", "image", 1, 1⟩) ::
      List.replicate 15 (.run 3 .ok)) (s := newSystem)
      ⟨⟨⟨⟨rfl, rfl, rfl, rfl⟩, fun k _ => by cases k <;> rfl⟩, rfl, rfl⟩, rfl⟩ (by decide +kernel)
  have hstored : s.shared.data.stored = storedThree.stored := by
    funext k name
    cases k with
    | dataPlane =>
      exact congrArg (fun m => (AList.lookup name m).map Record.dataPlane) (AList.ext hdataPlanes)
    | worker =>
      exact congrArg (fun m => (AList.lookup name m).map Record.worker) (AList.ext hworkers)
    | service =>
      exact congrArg (fun m => (AList.lookup name m).map Record.service) (AList.ext hservices)
  obtain ⟨tr', s', hrun', hok', hstate, hsettled'⟩ : ∃ tr' s',
      (failover s.shared.data.stored).threads.machine.Run tr' s' ∧
      (∀ st ∈ tr', callSucceeds st = true) ∧ (∃ t ∈ s'.threads, t.op = .reconstructState) ∧
      ∀ t ∈ s'.threads, t.op.isRestoring = true → t.phase = .finished := by
    rw [hstored]
    exact Machine.exists_run_of_play (.start .reconstructState :: List.replicate 8 (.run 0 .ok) ++
      List.replicate 6 (.run 1 .ok) ++ List.replicate 12 (.run 2 .ok) ++
      List.replicate 6 (.run 0 (.endpoints []))) (s := ⟨⟨storedThree, fun _ => {}, fun _ => 0⟩, []⟩)
      ⟨⟨⟨⟨rfl, rfl, rfl, rfl⟩, rfl⟩, rfl, rfl⟩, rfl⟩ (by decide +kernel)
  refine ⟨tr, s, tr', s', hrun, hrun', ?_,
    registered_eq_of_failover hrun hok hsettled hrun' hok' hstate hsettled'⟩
  rw [(registered_eq_stored_of_run hrun hok hsettled).1, hstored]
  intro k
  cases k with
  | dataPlane => exact ⟨"10.0.0.1", _, rfl⟩
  | worker => exact ⟨"w", _, rfl⟩
  | service => exact ⟨"f", _, rfl⟩

end Dirigent.ControlPlane
