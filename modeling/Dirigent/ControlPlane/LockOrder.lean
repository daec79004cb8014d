import Dirigent.Deadlock
import Dirigent.ControlPlane.Allocation

/-!
# The order of the locks

`DeregisterNode` takes the lock of `NIStorage`, then that of `SIStorage`, then the `EndpointLock` of
each service. A scaling loop waits under its `EndpointLock` for the goroutines that create
sandboxes, and these read `NIStorage`. So a node that is deregistered during an upscale and the
upscale wait for each other (`exists_deadlocked`).

**The order.** Apart from this the locks are taken in the order `NIStorage`, `SIStorage`, an
`EndpointLock`, then an endpoint map or `DataPlaneConnections` (`Lock.rank`), if the outcomes of
calls are such that no operation takes a lock twice (`Discipline`).

**The exception.** Who creates sandboxes reads `NIStorage`, under the `EndpointLock` of the loop
that waits for it and once more under its own read lock. It is not kept waiting there as long as
nobody has or wants the write lock.

**The condition (`ordered`).** `NIStorage` is not locked for writing while sandboxes are being
created, and none are created while it is; the persistence layer and data planes do not fail;
snapshots are off; no node is replaced by one of its name while its map is locked.

* `not_deadlocked_of_ordered` — in every run under the condition there is no deadlock.
-/

namespace Dirigent.ControlPlane

open Prog Protocol Threads

/-- The operations that come in: those of the API, failures, and the metrics that set the scaling
loops going. -/
def Op.isServed : Op → Bool
  | .registerDataplane _ | .deregisterDataplane _ | .registerService _ | .deregisterService _
  | .registerNode _ | .deregisterNode _ | .handleFailure _ | .onMetricsReceive _ => true
  | _ => false

/-- Any number of these operations, on a new control plane. -/
def servedControlPlane : Lang Lock Act Op Act.Ans State Choice := controlPlaneFrom Fresh Op.isServed

/-- The goroutine creates a sandbox. -/
def Op.isCreation : Op → Bool
  | .createSandbox _ => true
  | _ => false

variable {o op : Op} {s s' : System} {i : ℕ} {ch : Choice} {t : Goroutine Op (Code Unit)}
  {tr : Trace}

theorem Op.exists_of_isCreation (h : o.isCreation = true) : ∃ c, o = .createSandbox c := by
  cases o with
  | createSandbox c => exact ⟨c, rfl⟩
  | _ => cases h

/-- A sandbox is being created. -/
def creating (s : System) : Bool :=
  s.threads.any fun t => t.op.isCreation && decide (t.phase ≠ .finished)

/-- Nobody has the lock of `NIStorage` for writing, or waits to have it. -/
def nodesUnlocked (s : System) : Bool :=
  decide ((s.shared.locks .niStorage).writer = none ∧ (s.shared.locks .niStorage).waiting = none)

/-- The condition on a step. -/
def ordered (st : Machine.Step System (Threads.Event Op Choice)) : Bool :=
  match st.event with
  | .start _ => true
  | .run i ch => st.src.threads[i]?.all fun t =>
    (nodesUnlocked st.src || !t.code.starts.any Op.isCreation) &&
    match t.code with
    | .sync .lock .niStorage _ => !creating st.src
    | .act (.storeWorkerNodeInformation _) _ | .act (.storeServiceInformation _) _
    | .act (.deleteDeployment _ _) _ => ch.succeeds
    | .act .precreateSnapshots _ => !st.src.shared.data.precreateSnapshots
    | .act (.getNodeToUnlock name n) _ =>
      (st.src.shared.data.niStorage.lookup name).all fun m => decide (m = n)
    | _ => true

/-! ## The order -/

def Lock.rank : Lock → ℕ
  | .niStorage => 0
  | .siStorage => 1
  | .endpointLock _ => 2
  | .endpointMap _ => 3
  | .dataPlaneConnections => 4

/-- Locks are nested in order, but for the read lock that is taken twice. -/
theorem rank_lt_of_nests {l l' : Lock} (h : o.nests true l l' = true) (ho : o ≠ .checkWorkerNodes) :
    l.rank < l'.rank ∨ o.isCreation = true ∧ l' = .niStorage := by
  cases o with
  | checkWorkerNodes => exact absurd rfl ho
  | createSandbox c =>
    cases l <;> cases l' <;> first | (cases h; done) | exact .inr ⟨rfl, rfl⟩
  | _ => cases l <;> cases l' <;> first | (cases h; done) | exact .inl (by simp [Lock.rank])

/-- The goroutine runs a scaling loop. -/
def Op.isLoop : Op → Bool
  | .scalingControllerLoop _ | .takeLastValue _ _ _ => true
  | _ => false

/-- The goroutine is one that a scaling loop starts. -/
def Op.isScaling : Op → Bool
  | .createSandbox _ | .drainAndDelete _ _ => true
  | _ => false

theorem isScaling_of_mayStart (h : o.mayStart op = true) (ho : o.isLoop = true) :
    op.isScaling = true := by
  cases op with
  | createSandbox c | drainAndDelete c es => rfl
  | _ => cases o <;> first | (cases ho; done) | cases h

theorem not_mayJump_of_isScaling (ho : o.isScaling = true) : o.mayJump op = false := by
  cases o <;> first | rfl | cases ho

theorem ne_checkWorkerNodes_of_mayStart (h : o.mayStart op = true) :
    op ≠ .checkWorkerNodes := by
  rintro rfl
  cases h

theorem ne_checkWorkerNodes_of_mayJump (h : o.mayJump op = true) :
    op ≠ .checkWorkerNodes := by
  rintro rfl
  cases o <;> cases h

/-! ## Nodes are not locked while sandboxes are created -/

theorem creating_iff :
    creating s = true ↔ ∃ t ∈ s.threads, t.op.isCreation = true ∧ t.phase ≠ .finished := by
  simp [creating]

theorem nodesUnlocked_iff : nodesUnlocked s = true ↔
    (s.shared.locks .niStorage).writer = none ∧ (s.shared.locks .niStorage).waiting = none :=
  decide_eq_true_iff

theorem ordered_run (h : ordered ⟨s, .run i ch, s'⟩ = true) (ht : s.threads[i]? = some t) :
    (nodesUnlocked s = true ∨ ∀ op ∈ t.code.starts, op.isCreation = false) ∧
      ((∃ k, t.code = .sync .lock .niStorage k) → creating s = false) := by
  simp only [ordered, ht, Option.all_some, Bool.and_eq_true, Bool.or_eq_true] at h
  refine ⟨h.1.imp id fun hno => by simpa using hno, ?_⟩
  rintro ⟨k, hcode⟩
  rw [hcode] at h
  simpa using h.2

/-- **One step** keeps nodes unlocked while sandboxes are created. -/
theorem nodesUnlocked_step {e : Threads.Event Op Choice}
    (hunlocked : creating s = true → nodesUnlocked s = true)
    (hordered : ordered ⟨s, e, s'⟩ = true)
    (hnext : servedControlPlane.threads.machine.next s e = some s') :
    creating s' = true → nodesUnlocked s' = true := by
  intro hcreating
  obtain ⟨u, hu, hcreation, hphase⟩ := creating_iff.1 hcreating
  rcases Threads.next_cases hnext with ⟨op, t, rfl, hop, rfl⟩ |
    ⟨i, ch, t, d, t', new, rfl, ht, hstep, rfl⟩
  · refine hunlocked (creating_iff.2 ⟨u, ?_, hcreation, hphase⟩)
    rcases List.mem_append.1 hu with hu | hu
    · exact hu
    · obtain rfl := List.mem_singleton.1 hu
      simp only [Lang.threads, Option.ite_none_right_eq_some, Option.some.injEq] at hop
      obtain ⟨hserved, rfl⟩ := hop
      obtain ⟨c, rfl⟩ := Op.exists_of_isCreation hcreation
      cases hserved
  · obtain ⟨hstarts, hlock⟩ := ordered_run hordered ht
    obtain ⟨hrunning, hop, hnew⟩ := Lang.op_of_step hstep
    -- the goroutine that creates was there, or is started now
    have hbefore : creating s = true ∨ ∃ op ∈ t.code.starts, op.isCreation = true := by
      rcases mem_of_mem_advance hu with rfl | hsame | hu
      · rcases hop with hop | hop
        · exact .inl (creating_iff.2 ⟨t, List.mem_of_getElem? ht, hop ▸ hcreation, hrunning⟩)
        · exact .inr ⟨_, hop, hcreation⟩
      · exact .inl (creating_iff.2 ⟨u, hsame, hcreation, hphase⟩)
      · exact .inr ⟨_, hnew u hu, hcreation⟩
    have hfree : nodesUnlocked s = true := by
      rcases hbefore with hbefore | ⟨op, hop, hcreates⟩
      · exact hunlocked hbefore
      · refine hstarts.resolve_right fun hno => ?_
        rw [hno op hop] at hcreates
        cases hcreates
    refine nodesUnlocked_iff.2 (Lang.free_of_step hstep ?_ (nodesUnlocked_iff.1 hfree))
    intro k hcode
    rcases hbefore with hbefore | ⟨op, hop, -⟩
    · rw [hlock ⟨k, hcode⟩] at hbefore
      cases hbefore
    · rw [hcode] at hop
      cases hop

theorem nodesUnlocked_of_creating (h : servedControlPlane.threads.machine.Run tr s)
    (hordered : ∀ st ∈ tr, ordered st = true) :
    creating s = true → nodesUnlocked s = true := by
  refine h.invariant (G := fun st => ordered st = true)
    (I := fun _ s => creating s = true → nodesUnlocked s = true) ?_ ?_ hordered
  · rintro ⟨s, ts⟩ ⟨-, rfl⟩ hcreating
    simp [creating] at hcreating
  · exact fun tr s e s' _ hI hG hnext => nodesUnlocked_step hI hG hnext

/-! ## What goroutines hold and wait for -/

/-- The answers under the condition. -/
def orderedAnswer : (a : Act) → a.Ans → Prop
  | .storeWorkerNodeInformation _, r => r = true
  | .storeServiceInformation _, r => r = true
  | .deleteDeployment _ _, r => r = true
  | .precreateSnapshots, r => r = false
  | .getNodeToUnlock _ n, r => r = none ∨ r = some n
  | _, _ => True

theorem orderedAnswer_of_ordered {a : Act} {k : a.Ans → Code Unit} {r : a.Ans} {d : State}
    (h : ordered ⟨s, .run i ch, s'⟩ = true) (ht : s.threads[i]? = some t)
    (hcode : t.code = .act a k) (he : exec a s.shared.data ch = some (r, d)) :
    orderedAnswer a r := by
  simp only [ordered, ht, Option.all_some, Bool.and_eq_true, hcode] at h
  cases a with
  | storeWorkerNodeInformation info | storeServiceInformation info | deleteDeployment ip name =>
    cases he
    exact h.2
  | precreateSnapshots =>
    cases he
    show s.shared.data.precreateSnapshots = false
    simpa using h.2
  | getNodeToUnlock name n =>
    cases he
    have hall : (s.shared.data.niStorage.lookup name).all (fun m => decide (m = n)) = true := h.2
    show s.shared.data.niStorage.lookup name = none ∨ s.shared.data.niStorage.lookup name = some n
    cases hlookup : s.shared.data.niStorage.lookup name with
    | none => exact .inl rfl
    | some m =>
      rw [hlookup] at hall
      obtain rfl : m = n := by simpa using hall
      exact .inr rfl
  | _ => trivial

def everyLock (_ : Lock) : Bool := true

theorem discipline_everyLock : Discipline everyLock true orderedAnswer where
  deployments _ _ _ _ h := h
  maps := .inr fun _ _ _ h => h
  workers _ _ _ h := h
  services _ _ _ h := h
  snapshots _ _ h := h

/-- Who does what, and who holds which lock. -/
abbrev orderWatch : Protocol Lock Act Op Act.Ans ((Op × List Ref) × Op × List (Lock × Bool)) :=
  known.prod (locks everyLock (lockRules everyLock true))

theorem follows_orderWatch (op : Op) :
    orderWatch.Follows orderedAnswer (body op) (fun _ => orderWatch.ended)
      (orderWatch.start op) := by
  have hknown : known.Follows orderedAnswer (body op) (fun _ => known.ended) (known.start op) :=
    (knows_body op).of_allowed fun _ _ _ => trivial
  exact Follows.mono (hknown.prod (follows_locks discipline_everyLock op)) fun _ _ hend => hend

section

variable {s s' : Shared Lock State} {i : ℕ} {ch : Choice}
  {gs new : List (Goroutine Op ((Op × List Ref) × Op × List (Lock × Bool)))}
  {g g' : Goroutine Op ((Op × List Ref) × Op × List (Lock × Bool))}

/-- The protocols know what the goroutine runs, and it does not monitor nodes. -/
structure RunsAs (g : Goroutine Op ((Op × List Ref) × Op × List (Lock × Bool))) : Prop where
  known : g.code.1.1 = g.op
  locks : g.code.2.1 = g.op
  served : g.op ≠ .checkWorkerNodes

/-- A goroutine that waits for others has only locks with which it may. -/
def WaitsLawfully (g : Goroutine Op ((Op × List Ref) × Op × List (Lock × Bool))) : Prop :=
  g.phase = .waiting → ∀ p ∈ g.code.2.2, g.op.waitsWith true p.1 = true

structure InOrder (s : Shared Lock State)
    (gs : List (Goroutine Op ((Op × List Ref) × Op × List (Lock × Bool)))) : Prop where
  booked : Booked everyLock s.locks (Booked.heldAt (gs.map (Goroutine.map Prod.snd)))
  family : Family s gs
  related : Related (fun o op => o.isLoop = true → op.isScaling = true) gs
  runs : ∀ g ∈ gs, RunsAs g
  waits : ∀ g ∈ gs, WaitsLawfully g

theorem RunsAs.move (h : RunsAs g) (hm : orderWatch.Moves exec s i g ch s' g' new) : RunsAs g' := by
  rcases hm.code_cases with ⟨-, hg', -⟩ | ⟨l, -, hg', -⟩ | ⟨d, -, hguard, hg'⟩
  · rw [hg']
    exact ⟨h.known, h.locks, h.served⟩
  · rw [hg']
    cases l with
    | _ => exact ⟨h.known, h.locks, h.served⟩
  · rw [hg']
    exact ⟨rfl, rfl, ne_checkWorkerNodes_of_mayJump hguard.1.1⟩

theorem runsAs_of_mem_new (hm : orderWatch.Moves exec s i g ch s' g' new) :
    ∀ u ∈ new, RunsAs u ∧ WaitsLawfully u := by
  intro u hu
  obtain ⟨-, cs, parent, op, hguard, hop, rfl⟩ := hm.mem_new hu
  have hstart : g.code.1.1.mayStart op = true := by
    rcases hguard with hguard | hguard
    · exact (hguard.1 op hop).1
    · exact (hguard.1 op hop).1
  refine ⟨⟨rfl, rfl, ne_checkWorkerNodes_of_mayStart hstart⟩, fun hwaiting => ?_⟩
  cases hwaiting

/-- **Every move keeps the goroutines in order.** -/
theorem InOrder.move (h : InOrder s gs) (hg : gs[i]? = some g)
    (hm : orderWatch.Moves exec s i g ch s' g' new) : InOrder s' (advance gs i g' new) := by
  have hmem := List.mem_of_getElem? hg
  have hruns := h.runs g hmem
  have hbooked : Booked everyLock s'.locks
      (Booked.heldAt ((advance gs i g' new).map (Goroutine.map Prod.snd))) := by
    rw [map_advance]
    exact h.booked.move (by simp [hg]) hm.snd
  refine ⟨hbooked, h.family.move hg hm, h.related.move h.family hg hm ?_ ?_, ?_, ?_⟩
  · intro cs hguard op hop hloop
    have hstart := (hguard.1 op hop).1
    rw [hruns.known] at hstart
    exact isScaling_of_mayStart hstart hloop
  · intro d hguard o hrelated hloop
    have hjump := hguard.1.1
    rw [hruns.known, not_mayJump_of_isScaling (hrelated hloop)] at hjump
    cases hjump
  · intro u hu
    rcases mem_of_mem_advance hu with rfl | hsame | hu
    · exact hruns.move hm
    · exact h.runs u hsame
    · exact (runsAs_of_mem_new hm u hu).1
  · intro u hu
    rcases mem_of_mem_advance hu with rfl | hsame | hu
    · intro hwaiting p hp
      obtain ⟨hop, hcode, cs, hguard⟩ := hm.guard_of_waiting hwaiting
      rw [hcode] at hp
      have hrule := hguard.2.1 p hp
      rw [hruns.locks] at hrule
      rw [hop]
      exact hrule
    · exact h.waits u hsame
    · exact (runsAs_of_mem_new hm u hu).2

end

/-- **In every run under the condition the goroutines are in order.** -/
theorem exists_inOrder_of_run (h : servedControlPlane.threads.machine.Run tr s)
    (hordered : ∀ st ∈ tr, ordered st = true) :
    ∃ gs, List.Forall₂ (orderWatch.Sim orderedAnswer) gs s.threads ∧ InOrder s.shared gs := by
  refine Protocol.exists_of_run (B := orderWatch) (G := fun st => ordered st = true)
    (I := InOrder) follows_orderWatch ?_ ?_ ?_ ?_ h hordered
  · rintro s ⟨-, hlocks, hunfinished⟩
    refine ⟨?_, Family.init hunfinished, ?_, ?_, ?_⟩
    · rw [hlocks]
      exact Booked.init
    · exact fun g hg => by cases hg
    · exact fun g hg => by cases hg
    · exact fun g hg => by cases hg
  · intro s ts gs op s' _ hop hI
    refine ⟨?_, hI.family.call rfl, hI.related.call rfl, ?_, ?_⟩
    · have hcall : Booked everyLock s.locks (Booked.heldAt (gs.map (Goroutine.map Prod.snd) ++
          [(locks everyLock (lockRules everyLock true)).goroutine none op])) := hI.booked.call op
      rw [List.map_append]
      exact hcall
    · refine forall_mem_concat hI.runs ⟨rfl, rfl, ?_⟩
      rintro rfl
      cases hop
    · exact forall_mem_concat hI.waits nofun
  · intro s ts s' i ch t a k r d hG ht hcode he
    exact orderedAnswer_of_ordered hG ht hcode he
  · intro s ts gs s' ts' i ch g g' new _ _ hg hm hI
    exact hI.move hg hm

/-! ## No deadlock -/

section

variable {s : System} {gs : List (Goroutine Op ((Op × List Ref) × Op × List (Lock × Bool)))}
  {g : Goroutine Op ((Op × List Ref) × Op × List (Lock × Bool))} {i j p : ℕ} {l : Lock}

theorem exists_of_waits_lock (hsim : List.Forall₂ (orderWatch.Sim orderedAnswer) gs s.threads)
    (hI : InOrder s.shared gs) (h : s.waits i = some l) :
    ∃ g t write, gs[i]? = some g ∧ s.threads[i]? = some t ∧ g.op = t.op ∧ g.parent = t.parent ∧
      g.phase ≠ .finished ∧ MayTake true g.op write g.code.2.2 l ∧
      (write = true ∨ (s.shared.locks l).rlock i = none) := by
  obtain ⟨t, k, o, ht, hphase, hcode, ho⟩ := Pool.exists_of_waits h
  obtain ⟨g, hg, hfollows, hop, hparent, hphases⟩ := exists_of_forall₂ hsim ht
  have hruns := hI.runs g (List.mem_of_getElem? hg)
  rw [hcode] at hfollows
  obtain ⟨-, hrules, -⟩ := hfollows.1
  rw [hruns.locks] at hrules
  rcases ho with rfl | ⟨rfl, hnone⟩
  · exact ⟨g, t, true, hg, ht, hop, hparent, hphases ▸ hphase, hrules, .inl rfl⟩
  · exact ⟨g, t, false, hg, ht, hop, hparent, hphases ▸ hphase, hrules, .inr hnone⟩

theorem ne_niStorage_of_isCreation {t : Goroutine Op (Code Unit)} {write : Bool}
    (hunlocked : creating s = true → nodesUnlocked s = true) (ht : s.threads[i]? = some t)
    (hcreation : t.op.isCreation = true) (hphase : t.phase ≠ .finished)
    (htakes : t.op.takes write l = true)
    (hwaits : write = true ∨ (s.shared.locks l).rlock i = none) : l ≠ .niStorage := by
  rintro rfl
  obtain ⟨hwriter, hwaiting⟩ := nodesUnlocked_iff.1
    (hunlocked (creating_iff.2 ⟨t, List.mem_of_getElem? ht, hcreation, hphase⟩))
  rcases hwaits with rfl | hnone
  · obtain ⟨c, hc⟩ := Op.exists_of_isCreation hcreation
    rw [hc] at htakes
    cases htakes
  · simp [RWMutex.rlock, hwriter, hwaiting] at hnone

/-- What a goroutine that a loop waits for can wait for itself. -/
theorem rank_of_isScaling {op : Op} {write : Bool} (hop : op.isScaling = true)
    (htakes : op.takes write l = true) (hne : op.isCreation = true → l ≠ .niStorage) :
    2 < l.rank := by
  cases op with
  | createSandbox c =>
    cases l with
    | niStorage => exact absurd rfl (hne rfl)
    | siStorage | endpointLock c => cases htakes
    | _ => simp [Lock.rank]
  | drainAndDelete c es =>
    cases l with
    | dataPlaneConnections => simp [Lock.rank]
    | _ => cases htakes
  | _ => cases hop

theorem mem_held_of_has (hI : InOrder s.shared gs) (hg : gs[i]? = some g)
    (h : (s.shared.locks l).has i = true) : ∃ b, (l, b) ∈ g.code.2.2 := by
  have hheld : Booked.heldAt (gs.map (Goroutine.map Prod.snd)) i = g.code.2.2 :=
    Booked.heldAt_of_getElem? (g := g.map Prod.snd) (by simp [hg])
  rw [← hheld]
  rcases Bool.or_eq_true_iff.1 h with h | h
  · exact ⟨true, hI.booked.mem_of_writer rfl (of_decide_eq_true h)⟩
  · exact ⟨false, hI.booked.mem_of_reader rfl (of_decide_eq_true h)⟩

/-- **Who holds a lock waits only for higher ones.** -/
theorem rank_lt_of_holds (hsim : List.Forall₂ (orderWatch.Sim orderedAnswer) gs s.threads)
    (hI : InOrder s.shared gs) (hunlocked : creating s = true → nodesUnlocked s = true) {l' : Lock}
    (hholds : s.holds j l = true) (hwaits : s.waits j = some l') : l.rank < l'.rank := by
  obtain ⟨g, t, write, hg, ht, hop, hparent, hphase, ⟨htakes, hnests⟩, ho⟩ :=
    exists_of_waits_lock hsim hI hwaits
  have hmem := List.mem_of_getElem? hg
  have hphases : t.phase ≠ .finished := by
    obtain ⟨u, hu, -, -, -, hphases⟩ := exists_of_forall₂ hsim ht
    obtain rfl := Option.some.inj (hg.symm.trans hu)
    exact hphases ▸ hphase
  have hnodes : g.op.isCreation = true → l' ≠ .niStorage := fun hcreation =>
    ne_niStorage_of_isCreation hunlocked ht (hop ▸ hcreation) hphases (hop ▸ htakes) ho
  rcases Bool.or_eq_true_iff.1 hholds with hhas | hhas
  · -- its own lock
    obtain ⟨b, hheld⟩ := mem_held_of_has hI hg hhas
    rcases rank_lt_of_nests (hnests (l, b) hheld) (hI.runs g hmem).served with hlt |
      ⟨hcreation, rfl⟩
    · exact hlt
    · exact absurd rfl (hnodes hcreation)
  · -- a lock of the loop that waits for it
    obtain ⟨q, hq, hhas⟩ := (Option.any_eq_true _ _).1 hhas
    rw [ht, Option.bind_some, ← hparent] at hq
    have howed : g.owedTo q = true := Goroutine.owedTo_iff.2 ⟨hq, hphase⟩
    obtain ⟨gp, hgp, hwaiting⟩ := hI.family.waits g hmem q howed
    obtain ⟨gp', hgp', hrelated⟩ := hI.related g hmem q howed
    obtain rfl := Option.some.inj (hgp.symm.trans hgp')
    obtain ⟨b, hheld⟩ := mem_held_of_has hI hgp hhas
    have hlawful := hI.waits gp (List.mem_of_getElem? hgp) hwaiting (l, b) hheld
    cases l with
    | endpointLock c =>
      refine rank_of_isScaling (hrelated ?_) htakes hnodes
      have hloop : gp.op.isLoopOf c = true := hlawful
      cases hopp : gp.op <;> rw [hopp] at hloop <;> first | rfl | cases hloop
    | _ => cases hlawful

end

/-- **No deadlock.** In every run under the condition no goroutines wait for each other's locks in a
cycle, where who creates a sandbox has the `EndpointLock` of the loop that waits for it. -/
theorem not_deadlocked_of_ordered {tr : Trace} {s : System}
    (h : servedControlPlane.threads.machine.Run tr s) (hordered : ∀ st ∈ tr, ordered st = true) :
    ¬ s.Deadlocked := by
  obtain ⟨gs, hsim, hI⟩ := exists_inOrder_of_run h hordered
  have hunlocked := nodesUnlocked_of_creating h hordered
  refine Pool.not_deadlocked_of_rank Lock.rank fun i j l l' _ hholds hwaits => ?_
  exact rank_lt_of_holds hsim hI hunlocked hholds hwaits

theorem init_servedControlPlane : servedControlPlane.threads.machine.init newSystem :=
  ⟨⟨⟨rfl, rfl, rfl, rfl⟩, rfl, rfl⟩, rfl⟩

/-- A node and a service are registered, the autoscaler asks for a sandbox, and the loop has started
the goroutine that creates it. -/
def upscaleOne : List (Threads.Event Op Choice) := List.flatten
  [[.start (.registerNode ⟨"w", "10.0.0.2", 10010, 8, 1024⟩)], List.replicate 10 (.run 0 .ok),
    List.replicate 2 (.run 1 .ok),
    [.start (.registerService ⟨"f", "image", 1, 1⟩)], List.replicate 14 (.run 2 .ok),
    [.start (.onMetricsReceive "f")], List.replicate 7 (.run 4 .ok),
    [.run 5 (.desired 1), .run 5 .ok], List.replicate 7 (.run 3 .ok)]

/-- A failure of the service is reported while its upscale goes on, and waits for it. -/
theorem not_deadlocked_of_upscale : ∃ tr s, servedControlPlane.threads.machine.Run tr s ∧
    (∀ st ∈ tr, ordered st = true) ∧ creating s = true ∧ s.waitsFor 7 3 = true ∧
    ¬ s.Deadlocked := by
  obtain ⟨tr, s, hrun, hordered, hcreating, hwaits⟩ := Machine.exists_run_of_play
    (upscaleOne ++ [.run 6 .ok, .start (.handleFailure [⟨.sandboxFailure, "f", ["sandbox"]⟩]),
      .run 7 .ok])
    (P := fun tr s => (∀ st ∈ tr, ordered st = true) ∧ creating s = true ∧
      s.waitsFor 7 3 = true)
    init_servedControlPlane (by decide +kernel)
  exact ⟨tr, s, hrun, hordered, hcreating, hwaits, not_deadlocked_of_ordered hrun hordered⟩

/-- The node is deregistered while the sandbox is created: `DeregisterNode` has `NIStorage` and
waits for the `EndpointLock`, and the upscale has the `EndpointLock` and waits for `NIStorage`. -/
theorem exists_deadlocked : ∃ tr s, servedControlPlane.threads.machine.Run tr s ∧ s.Deadlocked := by
  obtain ⟨tr, s, hrun, hnode, hendpoints⟩ := Machine.exists_run_of_play
    (upscaleOne ++ .start (.deregisterNode "w") :: List.replicate 7 (.run 7 .ok))
    (P := fun _ s => s.waitsFor 6 7 = true ∧ s.waitsFor 7 6 = true)
    init_servedControlPlane (by decide +kernel)
  exact ⟨tr, s, hrun, 6, .tail (.single hnode) hendpoints⟩

end Dirigent.ControlPlane
