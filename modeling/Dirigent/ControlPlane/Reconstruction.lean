import Dirigent.Progress
import Dirigent.ControlPlane.Recovery

/-!
# The endpoints after a failover

What becomes of `reconstructEndpointsState` if some of the worker nodes do not answer?

**A worker that fails.** A call that fails answers a nil list, and the next line reads it: the
goroutine faults, whatever the other workers have answered.

**The locks (`Recovery.Holds`).** The list of a service is read and stored under its `EndpointLock`,
so no entry is lost and the books of `Recovered` are kept in every run (`exists_recovering_of_run`).

**The end.** No goroutine takes a lock while it holds another, and none waits for anything else, so
they all come to their end (`Recovering.leads`). Then nothing is owed (`Recovering.restored`).

* `reconstructs_iff` — the reconstruction completes without a fault and restores every endpoint, in
  every interleaving, exactly if no connected worker fails.
-/

namespace Dirigent.ControlPlane

open Prog Protocol Threads

/-! ## Reconstruction on its own -/

/-- `reconstructEndpointsState` in the state `s₀`, with no lock held. -/
def reconstruction (s₀ : State) : Machine System (Threads.Event Op Choice) :=
  (controlPlaneFrom (fun _ => True) fun _ => false).threads.machine.startingAt
    ⟨⟨s₀, fun _ => {}, fun _ => 0⟩,
      [(controlPlaneFrom (fun _ => True) fun _ => false).goroutine none .reconstructEndpointsState]⟩

/-- The goroutines of the reconstruction, without the autoscalers that they start. -/
def Op.isReconstruction : Op → Bool
  | .reconstructEndpointsState | .reconstructEndpoint _ => true
  | _ => false

def Answers.choice (answers : Answers) (n : ℕ) : Choice :=
  match answers n with
  | some es => .endpoints es
  | none => .error

/-- The workers answer as given. -/
def answered (answers : Answers) (s : System) : Threads.Event Op Choice → Bool
  | .run i ch => match s.threads[i]?.bind actOf with
    | some (.listEndpoints n) => ch = answers.choice n
    | _ => true
  | .start _ => true

/-- A step of a goroutine of the reconstruction. -/
def reconstructs (answers : Answers) (s : System) (e : Threads.Event Op Choice) : Prop :=
  answered answers s e = true ∧
    ∃ i ch t, e = .run i ch ∧ s.threads[i]? = some t ∧ t.op.isReconstruction = true

/-- Beside what there was, every service and every node has one entry for each listed endpoint that
belongs to it. -/
structure Restored (s₀ : State) (answers : Answers) (s : State) : Prop where
  services : ∀ c, ∃ new, (s.services c).endpoints.Perm ((s₀.services c).endpoints ++ new) ∧
    (new.map s.endpoints).Perm ((s₀.allListed answers).filterMap (s₀.entryOfService c))
  nodes : ∀ n, ∃ new,
    (s.nodes n).endpointMap.entries.Perm ((s₀.nodes n).endpointMap.entries ++ new) ∧
      (new.map fun p => (s.endpoints p.1, p.2)).Perm
        ((s₀.allListed answers).filterMap (s₀.entryOfNode n))

/-! ## Who holds which lock -/

/-- The stages and the locks of the goroutines. -/
abbrev recoveryWatch (s₀ : State) :
    Protocol Lock Act Op Act.Ans (Recovery × Op × List (Lock × Bool)) :=
  (recovering s₀).prod (locks (fun _ => true) (lockRules (fun _ => true) false))

namespace Recovery

/-- What a goroutine runs. -/
def Runs : Recovery → Op → Prop
  | .main, op | .listing _ _, op | .failed _ _, op | .spawned, op => op = .reconstructEndpointsState
  | .auto, op => ∃ c, op = .scalingLoop c ∨ op = .scalingLoopRound c
  | .other, _ => False
  | _, op => ∃ r, op = .reconstructEndpoint r

/-- The locks that a goroutine has at each stage: only the one for an endpoint takes locks, and
between the read of a list and its store it has the lock of the list, which is as it was read. -/
def Holds (s₀ d : State) (held : List (Lock × Bool)) : Recovery → Prop
  | .main | .listing _ _ | .failed _ _ | .spawned | .auto => held = []
  | .locked r _ => ∃ n c ep, s₀.placeOf r = some (n, c, ep) ∧ (.endpointLock c, true) ∈ held
  | .read r _ seen => ∃ n c ep, s₀.placeOf r = some (n, c, ep) ∧ (.endpointLock c, true) ∈ held ∧
      (d.services c).endpoints = seen
  | _ => True

end Recovery

section

variable {s₀ d d' : State} {x : Recovery} {held : List (Lock × Bool)} {ch : Choice}

theorem Recovery.Holds.mono (h : x.Holds s₀ d held)
    (hsame : ∀ r e seen n c ep, x = .read r e seen → s₀.placeOf r = some (n, c, ep) →
      (d'.services c).endpoints = (d.services c).endpoints) : x.Holds s₀ d' held := by
  cases x with
  | read r e seen =>
    obtain ⟨n, c, ep, hplace, hmem, hseen⟩ := h
    exact ⟨n, c, ep, hplace, hmem, (hsame r e seen n c ep rfl hplace).trans hseen⟩
  | _ => exact h

variable {a : Act} {r : a.Ans} {l : Lock} {op : Op}

/-- An action changes the list of no service, or stores a list that was read. -/
theorem endpoints_of_may (hmay : x.may s₀ a) (hexec : exec a d ch = some (r, d')) (c : ℕ) :
    (d'.services c).endpoints = (d.services c).endpoints ∨
      ∃ v n e ep seen, x = .read v e seen ∧ s₀.placeOf v = some (n, c, ep) := by
  cases a with
  | nodes | newEndpoint | endpointMapSet | getEndpoints =>
    cases hexec
    exact Or.inl rfl
  | listEndpoints n =>
    simp only [exec] at hexec
    repeat' split at hexec
    all_goals cases hexec
    all_goals exact Or.inl rfl
  | setEndpoints c' seen e =>
    obtain ⟨v, n, ep, hx, hplace⟩ := hmay
    cases hexec
    by_cases hc : c = c'
    · subst hc
      exact Or.inr ⟨v, n, e, ep, seen, hx, hplace⟩
    · rw [modifyService_services_ne hc]
      exact Or.inl rfl
  | _ => exact Or.inl ((sameEntries_of_ambient hmay.1 hexec).services c).2

theorem Recovery.Holds.act (h : x.Holds s₀ d held) (hmay : x.may s₀ a)
    (hexec : exec a d ch = some (r, d')) : (x.afterAct a r).Holds s₀ d' held := by
  cases a with
  | nodes =>
    obtain rfl : x = .main := hmay
    exact h
  | listEndpoints n =>
    obtain ⟨todo, got, rfl⟩ := hmay
    cases r <;> exact h
  | newEndpoint ep =>
    obtain ⟨v, rfl, -⟩ := hmay
    trivial
  | endpointMapSet n e name =>
    obtain ⟨v, c, ep, rfl, -⟩ := hmay
    trivial
  | getEndpoints c =>
    cases hexec
    rcases hmay with ⟨v, e, n, ep, rfl, hplace⟩ | rfl
    · obtain ⟨n', c', ep', hplace', hmem⟩ := h
      rw [hplace] at hplace'
      cases hplace'
      exact ⟨n, c, ep, hplace, hmem, rfl⟩
    · trivial
  | setEndpoints c seen e =>
    obtain ⟨v, n, ep, rfl, -⟩ := hmay
    trivial
  | _ =>
    have hsame := sameEntries_of_ambient hmay.1 hexec
    rw [afterAct_ambient hmay.1]
    exact h.mono fun _ _ _ _ c _ _ _ => (hsame.services c).2

theorem Recovery.Holds.lock (h : x.Holds s₀ d held) (hsync : x.maySync = true)
    (hl : ∀ r e c, x = .mapped r e → l = .endpointLock c → ∃ n ep, s₀.placeOf r = some (n, c, ep)) :
    (x.after (.sync .lock l)).Holds s₀ d ((l, true) :: held) := by
  cases x with
  | mapped r e =>
    cases l with
    | endpointLock c =>
      obtain ⟨n, ep, hplace⟩ := hl r e c rfl rfl
      exact ⟨n, c, ep, hplace, List.mem_cons_self⟩
    | _ => trivial
  | child | made | done => cases l <;> trivial
  | _ => cases hsync

theorem Recovery.holds_of_maySync (hsync : x.maySync = true) : x.Holds s₀ d held := by
  cases x with
  | child | made | mapped | done => trivial
  | _ => cases hsync

theorem Recovery.Runs.act (h : x.Runs op) (hmay : x.may s₀ a) :
    (x.afterAct a r).Runs op := by
  cases a with
  | nodes =>
    obtain rfl : x = .main := hmay
    exact h
  | listEndpoints n =>
    obtain ⟨todo, got, rfl⟩ := hmay
    cases r <;> exact h
  | newEndpoint ep =>
    obtain ⟨v, rfl, -⟩ := hmay
    exact h
  | endpointMapSet n e name =>
    obtain ⟨v, c, ep, rfl, -⟩ := hmay
    exact h
  | getEndpoints c =>
    rcases hmay with ⟨v, e, n, ep, rfl, -⟩ | rfl <;> exact h
  | setEndpoints c seen e =>
    obtain ⟨v, n, ep, rfl, -⟩ := hmay
    exact h
  | _ =>
    rw [afterAct_ambient hmay.1]
    exact h

theorem Recovery.Runs.of_maySync (h : x.Runs op) (hsync : x.maySync = true) :
    ∃ r, op = .reconstructEndpoint r := by
  cases x with
  | child | made | mapped | done => exact h
  | _ => cases hsync

theorem Recovery.Runs.lock (h : x.Runs op) :
    (x.after (.sync .lock l)).Runs op := by
  cases x with
  | _ => cases l <;> exact h

end

/-- What is so of a goroutine, beside the books. -/
structure Watched (s₀ d : State) (g : Goroutine Op (Recovery × Op × List (Lock × Bool))) :
    Prop where
  locks : g.code.2.1 = g.op
  runs : g.code.1.Runs g.op
  holds : g.code.1.Holds s₀ d g.code.2.2

section

variable {s₀ : State} {answers : Answers} {s s' : Shared Lock State} {i : ℕ} {ch : Choice}
  {gs new : List (Goroutine Op (Recovery × Op × List (Lock × Bool)))}
  {g g' : Goroutine Op (Recovery × Op × List (Lock × Bool))}

theorem Watched.runs_of {d : State} {x : Recovery} (h : Watched s₀ d g) (hx : g.code.1 = x) :
    x.Runs g.op := hx ▸ h.runs

theorem Watched.holds_of {d : State} {x : Recovery} (h : Watched s₀ d g) (hx : g.code.1 = x) :
    x.Holds s₀ d g.code.2.2 := hx ▸ h.holds

theorem Watched.code_ne_other {d : State} (h : Watched s₀ d g) : g.code.1 ≠ .other := h.runs_of

/-- Who has read the list of a service has its lock, and the list is as it was. -/
theorem Watched.read {d : State} {r : EndpointRecord} {e n c : ℕ} {seen : List ℕ} {ep : Endpoint}
    (h : Watched s₀ d g) (hread : g.code.1 = .read r e seen)
    (hplace : s₀.placeOf r = some (n, c, ep)) :
    (.endpointLock c, true) ∈ g.code.2.2 ∧ (d.services c).endpoints = seen := by
  obtain ⟨n', c', ep', hplace', hmem, hseen⟩ := h.holds_of hread
  rw [hplace] at hplace'
  cases hplace'
  exact ⟨hmem, hseen⟩

theorem watched_goroutine {d : State} {op : Op} {parent : Option ℕ}
    (hop : (∃ r, op = .reconstructEndpoint r) ∨ ∃ c, op = .scalingLoop c) :
    Watched s₀ d ((recoveryWatch s₀).goroutine parent op) := by
  rcases hop with ⟨r, rfl⟩ | ⟨c, rfl⟩
  · exact ⟨rfl, ⟨r, rfl⟩, trivial⟩
  · exact ⟨rfl, ⟨c, Or.inl rfl⟩, rfl⟩

theorem Watched.move (h : Watched s₀ s.data g)
    (hm : (recoveryWatch s₀).Moves exec s i g ch s' g' new) :
    Watched s₀ s'.data g' ∧ ∀ u ∈ new, Watched s₀ s'.data u := by
  have hother := h.code_ne_other
  have hnil : ∀ u ∈ ([] : List (Goroutine Op (Recovery × Op × List (Lock × Bool)))),
      Watched s₀ s'.data u := List.forall_mem_nil _
  cases hm with
  | finish =>
    rw [Shared.report_data] at hnil ⊢
    exact ⟨⟨h.locks, h.runs, h.holds⟩, hnil⟩
  | @act a r d _ hguard hexec =>
    have hmay := hguard.1.resolve_left hother
    exact ⟨⟨h.locks, h.runs.act hmay, h.holds.act hmay hexec⟩, hnil⟩
  | announce => exact ⟨⟨h.locks, h.runs, h.holds⟩, hnil⟩
  | @acquire l m _ hguard =>
    obtain ⟨hsync, hl⟩ := hguard.1.resolve_left hother
    exact ⟨⟨h.locks, h.runs.lock, h.holds.lock hsync hl⟩, hnil⟩
  | unlock _ hguard | rlock _ hguard | runlock _ hguard =>
    obtain ⟨hsync, -⟩ := hguard.1.resolve_left hother
    exact ⟨⟨h.locks, h.runs, Recovery.holds_of_maySync hsync⟩, hnil⟩
  | @go cs _ hguard =>
    rcases hguard.1.resolve_left hother with ⟨got, hcode, rfl⟩ | ⟨hdone, hcs⟩
    · refine ⟨⟨h.locks, ?_, ?_⟩, ?_⟩
      · have hruns := h.runs_of hcode
        show (g.code.1.after (.go (got.map .reconstructEndpoint))).Runs g.op
        rwa [hcode]
      · have hholds := h.holds_of hcode
        show (g.code.1.after (.go (got.map .reconstructEndpoint))).Holds s₀ s.data g.code.2.2
        rwa [hcode]
      · intro u hu
        obtain ⟨op, hop, rfl⟩ := List.mem_map.1 hu
        obtain ⟨r, -, rfl⟩ := List.mem_map.1 hop
        exact watched_goroutine (.inl ⟨r, rfl⟩)
    · refine ⟨⟨h.locks, ?_, ?_⟩, ?_⟩
      · show (g.code.1.after (.go cs)).Runs g.op
        rw [hdone]
        exact h.runs_of hdone
      · show (g.code.1.after (.go cs)).Holds s₀ s.data g.code.2.2
        rw [hdone]
        trivial
      · intro u hu
        obtain ⟨op, hop, rfl⟩ := List.mem_map.1 hu
        exact watched_goroutine (.inr (hcs op hop))
  | join _ hguard | joined _ hguard => exact absurd (hguard.1.resolve_left hother) id
  | jump _ hguard =>
    obtain ⟨-, c, rfl⟩ := hguard.1.resolve_left hother
    exact ⟨⟨rfl, ⟨c, Or.inr rfl⟩, rfl⟩, hnil⟩

theorem Watched.op_move (h : Watched s₀ s.data g)
    (hm : (recoveryWatch s₀).Moves exec s i g ch s' g' new)
    (hop : g.op = .reconstructEndpointsState) : g'.op = g.op := by
  rcases hm.code_cases with ⟨-, heq, -⟩ | ⟨l, -, heq, -⟩ | ⟨c, -, hguard, -⟩
  · rw [heq]
  · rw [heq]
  · obtain ⟨hauto, -⟩ := hguard.1.resolve_left h.code_ne_other
    simpa [hop, Recovery.Runs] using h.runs_of hauto

theorem heldAt_of_getElem? (hg : gs[i]? = some g) :
    Booked.heldAt (gs.map (Goroutine.map Prod.snd)) i = g.code.2.2 := by
  have hg' : (gs.map (Goroutine.map Prod.snd))[i]? = some (g.map Prod.snd) := by simp [hg]
  exact Booked.heldAt_of_getElem? hg'

/-- The goroutines that do not move keep what they know: a list that one of them has read is stored
by no other. -/
theorem Watched.other {j : ℕ} {u : Goroutine Op (Recovery × Op × List (Lock × Bool))}
    (hbooked : Booked (fun _ => true) s.locks (Booked.heldAt (gs.map (Goroutine.map Prod.snd))))
    (hg : gs[i]? = some g) (hwatched : Watched s₀ s.data g)
    (hm : (recoveryWatch s₀).Moves exec s i g ch s' g' new) (hu : gs[j]? = some u) (hj : j ≠ i)
    (h : Watched s₀ s.data u) : Watched s₀ s'.data u := by
  refine ⟨h.locks, h.runs, h.holds.mono ?_⟩
  intro r e seen n c ep hread hplace
  rcases hm.data_cases with hdata | ⟨a, v, hguard, hexec⟩
  · rw [hdata]
  · rcases endpoints_of_may (hguard.1.resolve_left hwatched.code_ne_other) hexec c with
      hsame | ⟨r', n', e', ep', seen', hread', hplace'⟩
    · exact hsame
    · have hheld : ∀ {k : ℕ} {w : Goroutine Op (Recovery × Op × List (Lock × Bool))}
        {r e seen n ep},
          gs[k]? = some w → Watched s₀ s.data w → w.code.1 = .read r e seen →
          s₀.placeOf r = some (n, c, ep) →
          (.endpointLock c, true) ∈ Booked.heldAt (gs.map (Goroutine.map Prod.snd)) k := by
        intro k w r e seen n ep hw hwatched hread hplace
        rw [heldAt_of_getElem? hw]
        exact (hwatched.read hread hplace).1
      exact absurd (hbooked.eq_of_mem rfl (hheld hg hwatched hread' hplace')
        (hheld hu h hread hplace))
        hj

end

/-! ## Runs of the reconstruction -/

/-- What the lookups answer is what `s₀` has, and the workers answer as given. -/
theorem registryAnswer_of_exec {s₀ d d' : State} {answers : Answers} {a : Act} {r : a.Ans}
    {ch : Choice} (h : SameRegistry s₀ d) (hanswer : ∀ n, a = .listEndpoints n →
      ch = answers.choice n)
    (hdelete : ∀ ip name, a ≠ .deleteDeployment ip name)
    (hunlock : ∀ name n, a ≠ .getNodeToUnlock name n) (hexec : exec a d ch = some (r, d')) :
    registryAnswer s₀ answers a r := by
  cases a with
  | nodes =>
    cases hexec
    show (walkValues d.niStorage ch).Perm _
    rw [h.niStorage]
    exact ch.arrange_perm _
  | listEndpoints n =>
    obtain rfl := hanswer n rfl
    show r = s₀.listedBy answers n
    simp only [exec, (h.node n).2, Answers.choice] at hexec
    unfold State.listedBy
    cases hconnected : (s₀.nodes n).connected with
    | false =>
      rw [hconnected] at hexec
      cases hexec
      rfl
    | true =>
      rw [hconnected] at hexec
      cases hanswers : answers n <;> rw [hanswers] at hexec <;> cases hexec <;> rfl
  | getNode name =>
    cases hexec
    show d.niStorage.lookup name = _
    rw [h.niStorage]
  | getService name =>
    cases hexec
    show d.siStorage.lookup name = _
    rw [h.siStorage]
  | nodeInfo n =>
    cases hexec
    exact (h.node n).1
  | serviceInfo c =>
    cases hexec
    exact h.service c
  | deleteDeployment ip name => exact absurd rfl (hdelete ip name)
  | getNodeToUnlock name n => exact absurd rfl (hunlock name n)
  | _ => trivial

/-- The goroutines `gs` of the protocols stand for those of the system, and all books are kept. -/
structure Recovering (s₀ : State) (answers : Answers) (s : System)
    (gs : List (Goroutine Op (Recovery × Op × List (Lock × Bool)))) : Prop where
  sim : List.Forall₂ ((recoveryWatch s₀).Sim (registryAnswer s₀ answers)) gs s.threads
  recovered : Recovered s₀ answers s.shared.data (gs.map (Goroutine.map Prod.fst))
  booked : Booked (fun _ => true) s.shared.locks
    (Booked.heldAt (gs.map (Goroutine.map Prod.snd)))
  watched : ∀ g ∈ gs, Watched s₀ s.shared.data g
  phased : Phased s
  main : ∃ g, gs[0]? = some g ∧ g.op = .reconstructEndpointsState

section

variable {s₀ : State} {answers : Answers} {K : Set Ref} {s s' : System}
  {gs : List (Goroutine Op (Recovery × Op × List (Lock × Bool)))}

theorem follows_recoveryWatch (hs₀ : Allocated s₀ K) (op : Op) :
    (recoveryWatch s₀).Follows (registryAnswer s₀ answers) (body op)
      (fun _ => (recoveryWatch s₀).ended) ((recoveryWatch s₀).start op) := by
  have hdiscipline : Discipline (fun _ => true) false (registryAnswer s₀ answers) := by
    refine ⟨fun _ _ _ _ hr => hr, Or.inr fun _ _ _ hr => Or.inr hr, nofun, nofun, nofun⟩
  exact ((follows_recovering hs₀ op).prod (follows_locks hdiscipline op)).mono fun _ _ hy => hy

theorem recovering_init (hs₀ : Allocated s₀ K) (h : (reconstruction s₀).init s) :
    ∃ gs, Recovering s₀ answers s gs := by
  obtain rfl := h
  refine ⟨[(recoveryWatch s₀).goroutine none .reconstructEndpointsState], ?_, ?_, ?_, ?_, ⟨?_, ?_⟩,
    ⟨_, rfl, rfl⟩⟩
  · exact .cons (Protocol.sim_goroutine (P := controlPlaneFrom (fun _ => True) fun _ => false)
      (follows_recoveryWatch hs₀) none .reconstructEndpointsState) .nil
  · refine ⟨⟨rfl, rfl, fun _ => ⟨rfl, rfl⟩, fun _ => rfl⟩, le_rfl, ?_, ?_, ?_, ?_⟩
    · exact fun c => ⟨[], by simp, by simp, (zero_add _).trans (add_zero _)⟩
    · exact fun n => ⟨[], by simp, by simp, (zero_add _).trans (add_zero _)⟩
    · intro g hg
      rw [List.mem_singleton.1 hg]
      trivial
    · intro i j g u r r' e hg hu hgr
      rw [List.mem_singleton.1 (List.mem_of_getElem? hg)] at hgr
      cases hgr
  · have hcall : Booked (fun _ => true) (fun _ => {}) (Booked.heldAt ([] ++
        [(locks (fun _ => true) (lockRules (fun _ => true) false)).goroutine none
          .reconstructEndpointsState])) := Booked.call Booked.init _
    exact hcall
  · intro g hg
    rw [List.mem_singleton.1 hg]
    exact ⟨rfl, rfl, rfl⟩
  · intro l i
    constructor
    · intro h
      cases h
    · rintro ⟨t, k, ht, hphase, -⟩
      rw [List.mem_singleton.1 (List.mem_of_getElem? ht)] at hphase
      cases hphase
  · intro t ht
    rw [List.mem_singleton.1 ht]
    trivial

variable {i : ℕ} {t : Goroutine Op (Code Unit)} {a : Act}
  {g : Goroutine Op (Recovery × Op × List (Lock × Bool))} {late : Bool} {β : Type}
  {f : EndpointRecord → Option β}

theorem Recovering.guard_of_act {k : a.Ans → Code Unit} {r : a.Ans}
    (h : Recovering s₀ answers s gs) (ht : s.threads[i]? = some t) (hcode : t.code = .act a k)
    (hr : registryAnswer s₀ answers a r) :
    ∃ g, gs[i]? = some g ∧ g.code.1.may s₀ a := by
  obtain ⟨g, hg, hsim, -⟩ := exists_of_forall₂ h.sim ht
  rw [hcode] at hsim
  refine ⟨g, hg, ?_⟩
  exact (hsim r hr).1.1.resolve_left (h.watched g (List.mem_of_getElem? hg)).code_ne_other

/-- **Every step keeps all books**, if the workers answer as given. -/
theorem Recovering.step {e : Threads.Event Op Choice} (h : Recovering s₀ answers s gs)
    (hs₀ : Allocated s₀ K) (hanswered : answered answers s e = true)
    (hnext : (reconstruction s₀).next s e = some s') : ∃ gs', Recovering s₀ answers s' gs' := by
  obtain ⟨s, ts⟩ := s
  rcases Threads.next_cases hnext with ⟨c, t, rfl, hc, -⟩ |
    ⟨i, ch, t, d, t', new, rfl, ht, hstep, rfl⟩
  · cases hc
  · have hallowed : ∀ a k r d, t.code = .act a k → exec a s.data ch = some (r, d) →
        registryAnswer s₀ answers a r := by
      intro a k r d hcode hexec
      refine registryAnswer_of_exec h.recovered.registry ?_ ?_ ?_ hexec
      · rintro n rfl
        simpa [answered, show ts[i]? = some t from ht, actOf, hcode] using hanswered
      · rintro ip name rfl
        have hr : registryAnswer s₀ answers (.deleteDeployment ip name) true := rfl
        obtain ⟨g, -, hambient, -⟩ := h.guard_of_act ht hcode hr
        cases hambient
      · rintro name n rfl
        have hr : registryAnswer s₀ answers (.getNodeToUnlock name n) (some n) := rfl
        obtain ⟨g, -, hambient, -⟩ := h.guard_of_act ht hcode hr
        cases hambient
    obtain ⟨g, g', gnew, hg, hm, hsim, hcases⟩ := Protocol.exists_advance_cases
      (P := controlPlaneFrom (fun _ => True) fun _ => false) (follows_recoveryWatch hs₀)
        h.sim ht hstep
      hallowed
    have hgfst : (gs.map (Goroutine.map Prod.fst))[i]? = some (g.map Prod.fst) := by simp [hg]
    have hgsnd : (gs.map (Goroutine.map Prod.snd))[i]? = some (g.map Prod.snd) := by simp [hg]
    have hwatched := h.watched g (List.mem_of_getElem? hg)
    refine ⟨advance gs i g' gnew, hsim, ?_, ?_, ?_, h.phased.step ht hstep, ?_⟩
    · rw [map_advance]
      rcases hcases with ⟨a, k, r, hcode, hexec, hguard, rfl, rfl⟩ | ⟨-, hdata, hpassive⟩
      · refine h.recovered.act hgfst hs₀ hguard.1 hexec (hallowed a k r _ hcode hexec) ?_
        rintro c seen e rfl
        obtain ⟨v, n, ep, hread, hplace⟩ := hguard.1.resolve_left hwatched.code_ne_other
        exact (hwatched.read hread hplace).2
      · have hkept := h.recovered.passive hgfst hpassive.passive_fst
        rw [← hdata] at hkept
        exact hkept
    · rw [map_advance]
      exact h.booked.move hgsnd hm.snd
    · obtain ⟨hself, hnew⟩ := hwatched.move hm
      intro u hu
      rcases mem_advance hg hu with rfl | ⟨j, hj, hu⟩ | hu
      · exact hself
      · exact Watched.other h.booked hg hwatched hm hu hj (h.watched u (List.mem_of_getElem? hu))
      · exact hnew u hu
    · obtain ⟨u, hu, hop⟩ := h.main
      by_cases hi : 0 = i
      · subst hi
        rw [hg] at hu
        cases hu
        exact ⟨g', getElem?_advance_self g' gnew hg, (hwatched.op_move hm hop).trans hop⟩
      · exact ⟨u, getElem?_advance_of_ne g' gnew hu hi, hop⟩

/-- **All runs keep all books**, if the workers answer as given. -/
theorem exists_recovering_of_run (hs₀ : Allocated s₀ K) {tr : Trace}
    (h : (reconstruction s₀).Run tr s)
    (hanswered : ∀ st ∈ tr, answered answers st.src st.event = true) :
    ∃ gs, Recovering s₀ answers s gs := by
  refine h.invariant (G := fun st => answered answers st.src st.event = true)
    (I := fun _ s => ∃ gs, Recovering s₀ answers s gs) ?_ ?_ hanswered
  · intro s hinit
    exact recovering_init hs₀ hinit
  · rintro tr s e s' - ⟨gs, hgs⟩ hst hnext
    exact hgs.step hs₀ hst hnext

/-! ## To the end -/

theorem Watched.isReconstruction {d : State} (h : Watched s₀ d g) :
    g.op.isReconstruction = true ↔ g.code.1 ≠ .auto := by
  have hruns := h.runs
  cases hx : g.code.1 <;> rw [hx] at hruns
  case auto => obtain ⟨c, hc | hc⟩ := hruns <;> simp [hc, Op.isReconstruction]
  case other => exact hruns.elim
  case main | listing | failed | spawned => simp [show g.op = _ from hruns, Op.isReconstruction]
  all_goals
    obtain ⟨r, hr⟩ := hruns
    simp [hr, Op.isReconstruction]

theorem Recovery.debt_of_ends {x : Recovery} (hx : x.ends s₀)
    (hf : ∀ r, s₀.placeOf r = none → f r = none) : x.debt s₀ answers late f = 0 := by
  rcases hx with rfl | rfl | rfl | rfl | ⟨r, hr, rfl | ⟨e, rfl⟩⟩
  all_goals simp_all [Recovery.debt]

theorem exists_registryAnswer (ha : a.mayWait = true) : ∃ r, registryAnswer s₀ answers a r := by
  cases a with
  | receive => exact ⟨(0, true), trivial⟩
  | place => exact ⟨none, trivial⟩
  | sendStop | selectTick | offer | awaitTaken => exact ⟨true, trivial⟩
  | _ => cases ha

/-- The choices with which a goroutine of the reconstruction moves on. -/
def Answers.choiceFor (answers : Answers) (t : Goroutine Op (Code Unit)) : Choice :=
  match actOf t with
  | some (.listEndpoints n) => answers.choice n
  | _ => .ok

/-- The goroutine that asks the workers starts those for the endpoints. -/
def Op.rank : Op → ℕ
  | .reconstructEndpointsState => 1
  | _ => 0

namespace Recovering

variable (h : Recovering s₀ answers s gs)

include h

/-- What a goroutine is in a state of the reconstruction: the goroutine of the protocols that stands
for it. -/
theorem exists_watched (ht : s.threads[i]? = some t) :
    ∃ g, gs[i]? = some g ∧ Watched s₀ s.shared.data g ∧ g.op = t.op ∧
      g.code.1.Valid s₀ answers s.shared.data ∧
      (recoveryWatch s₀).Follows (registryAnswer s₀ answers) t.code
        (fun _ => (recoveryWatch s₀).ended) g.code := by
  obtain ⟨g, hg, hsim, hop, -⟩ := exists_of_forall₂ h.sim ht
  have hmem := List.mem_of_getElem? hg
  exact ⟨g, hg, h.watched g hmem, hop, h.recovered.valid _ (List.mem_map_of_mem hmem), hsim⟩

/-- **No goroutine of the reconstruction faults** if all workers that are asked answer. -/
theorem ne_halt (hlisted : ∀ n ∈ s₀.niStorage.entries.map Sigma.snd, s₀.listedBy answers n ≠ none)
    (ht : t ∈ s.threads) (hop : t.op.isReconstruction = true) :
    t.code ≠ .halt := by
  intro hhalt
  obtain ⟨i, hi⟩ := List.getElem?_of_mem ht
  obtain ⟨g, -, hwatched, hgop, hvalid, hfollows⟩ := h.exists_watched hi
  rw [hhalt] at hfollows
  rcases hfollows.1 with hauto | hother | ⟨todo, got, hfailed⟩
  · exact hwatched.isReconstruction.1 (hgop ▸ hop) hauto
  · exact hwatched.code_ne_other hother
  · rw [hfailed] at hvalid
    obtain ⟨n, hn, hnone⟩ := hvalid
    exact hlisted n hn hnone

/-- **The goroutines of the reconstruction hold one lock at a time.** -/
theorem unnested
    (hlisted : ∀ n ∈ s₀.niStorage.entries.map Sigma.snd, s₀.listedBy answers n ≠ none) :
    Unnested Op.isReconstruction s (Booked.heldAt (gs.map (Goroutine.map Prod.snd))) := by
  refine ⟨h.booked, h.phased, ?_, ?_, ?_, ?_, fun t ht hop => h.ne_halt hlisted ht hop⟩
  · intro i hheld
    cases hi : s.threads[i]? with
    | none =>
      refine absurd ?_ hheld
      have hnone : gs[i]? = none := by
        rw [List.getElem?_eq_none_iff] at hi ⊢
        rw [h.sim.length_eq]
        exact hi
      simp [Booked.heldAt, modeAt, hnone]
    | some t =>
      obtain ⟨g, hg, hwatched, hop, -⟩ := h.exists_watched hi
      refine ⟨t, rfl, ?_⟩
      rw [← hop, hwatched.isReconstruction]
      intro hauto
      exact hheld ((heldAt_of_getElem? hg).trans (hwatched.holds_of hauto))
  · intro i t o l k ht hcode ho
    obtain ⟨g, hg, hwatched, hop, -, hfollows⟩ := h.exists_watched ht
    rw [hcode] at hfollows
    obtain ⟨⟨hguard, hrules, -⟩, -⟩ := hfollows
    obtain ⟨hsync, -⟩ := hguard.resolve_left hwatched.code_ne_other
    obtain ⟨r, hr⟩ := hwatched.runs.of_maySync hsync
    rw [heldAt_of_getElem? hg]
    constructor
    · have hnests : ∀ p ∈ g.code.2.2, g.code.2.1.nests false p.1 l = true := by
        rcases ho with rfl | rfl <;> exact hrules.2
      rw [hwatched.locks, hr] at hnests
      refine List.eq_nil_iff_forall_not_mem.2 ?_
      intro p hp
      cases hnests p hp
    · rw [← hop, hr]
      rfl
  · intro i t v ht hcode
    obtain ⟨g, hg, -, -, -, hfollows⟩ := h.exists_watched ht
    rw [hcode] at hfollows
    exact (heldAt_of_getElem? hg).trans hfollows.2
  · intro t ht hop cs k hcode
    obtain ⟨i, hi⟩ := List.getElem?_of_mem ht
    obtain ⟨g, -, hwatched, -, -, hfollows⟩ := h.exists_watched hi
    rw [hcode] at hfollows
    exact hfollows.1.1.resolve_left hwatched.code_ne_other

/-- **The goroutines of the reconstruction wait only for locks.** -/
theorem willing :
    Willing (controlPlaneFrom (fun _ => True) fun _ => false) Op.isReconstruction
      (reconstructs answers) s := by
  intro i t ht hop
  refine ⟨answers.choiceFor t, ⟨?_, i, _, t, rfl, ht, hop⟩, ?_⟩
  · simp only [answered, ht, Option.bind_some]
    split
    case h_1 n hact =>
      refine decide_eq_true ?_
      rw [Answers.choiceFor, hact]
    case h_2 => rfl
  · intro a k hcode
    refine exec_ne_none ?_ _
    by_contra hwait
    rw [Bool.not_eq_false] at hwait
    obtain ⟨r, hr⟩ : ∃ r, registryAnswer s₀ answers a r := exists_registryAnswer hwait
    obtain ⟨g, hg, hwatched, hgop, -, hfollows⟩ := h.exists_watched ht
    rw [hcode] at hfollows
    have hmay := (hfollows r hr).1.1.resolve_left hwatched.code_ne_other
    have hauto : g.code.1 = .auto := by
      cases a with
      | receive | place | sendStop => cases hmay.1
      | selectTick | offer | awaitTaken => exact hmay.2 rfl
      | _ => cases hwait
    exact hwatched.isReconstruction.1 (hgop ▸ hop) hauto

theorem rank_lt (ht : t ∈ s.threads)
    (hop : t.op.isReconstruction = true) {op : Op} (hstarts : op ∈ t.code.starts)
    (hbusy : op.isReconstruction = true) : op.rank < t.op.rank := by
  obtain ⟨i, hi⟩ := List.getElem?_of_mem ht
  obtain ⟨g, -, hwatched, hgop, -, hfollows⟩ := h.exists_watched hi
  have hother := hwatched.code_ne_other
  cases hcode : t.code <;> rw [hcode] at hstarts hfollows
  case go cs k =>
    rcases hfollows.1.1.resolve_left hother with ⟨got, hlisting, rfl⟩ | ⟨-, hcs⟩
    · obtain ⟨r, -, rfl⟩ := List.mem_map.1 hstarts
      rw [← hgop, show g.op = _ from hwatched.runs_of hlisting]
      exact Nat.zero_lt_one
    · obtain ⟨c, rfl⟩ := hcs op hstarts
      cases hbusy
  case join cs k => exact (hfollows.1.1.resolve_left hother).elim
  case jump c =>
    obtain ⟨hauto, -⟩ := hfollows.1.resolve_left hother
    exact absurd hauto (hwatched.isReconstruction.1 (hgop ▸ hop))
  all_goals cases hstarts

/-- **The reconstruction comes to its end** if all workers that are asked answer. -/
theorem leads (hs₀ : Allocated s₀ K)
    (hlisted : ∀ n ∈ s₀.niStorage.entries.map Sigma.snd, s₀.listedBy answers n ≠ none) :
    (reconstruction s₀).Leads (reconstructs answers) (Settled Op.isReconstruction) s := by
  refine leads_of_unnested (P := controlPlaneFrom (fun _ => True) fun _ => false)
    (M := reconstruction s₀) (E := reconstructs answers) rfl Op.rank
    (I := fun s => ∃ gs, Recovering s₀ answers s gs) (fun _ _ he => he.2) ?_ ?_ ?_ ?_ ⟨gs, h⟩
  · rintro s e s' ⟨gs, hgs⟩ he hnext
    exact hgs.step hs₀ he.1 hnext
  · rintro s ⟨gs, hgs⟩ t ht hop op hstarts hbusy
    exact hgs.rank_lt ht hop hstarts hbusy
  · rintro s ⟨gs, hgs⟩
    exact ⟨_, hgs.unnested hlisted⟩
  · rintro s ⟨gs, hgs⟩
    exact hgs.willing

/-! ## What has been restored -/

theorem ends (hsettled : Settled Op.isReconstruction s) (hg : g ∈ gs) : g.code.1.ends s₀ := by
  obtain ⟨i, hi⟩ := List.getElem?_of_mem hg
  obtain ⟨t, ht⟩ : ∃ t, s.threads[i]? = some t := by
    have hlt := (List.getElem?_eq_some_iff.1 hi).1
    rw [h.sim.length_eq] at hlt
    exact ⟨_, List.getElem?_eq_getElem hlt⟩
  obtain ⟨g', hg', hwatched, hop, -, hfollows⟩ := h.exists_watched ht
  rw [hi] at hg'
  cases hg'
  by_cases hauto : g.code.1 = .auto
  · exact Or.inr (Or.inr (Or.inl hauto))
  · have hbusy : t.op.isReconstruction = true := hop ▸ hwatched.isReconstruction.2 hauto
    have hmem := List.mem_of_getElem? ht
    have hfits := h.phased.fits t hmem
    rw [Goroutine.Fits, hsettled t hmem hbusy] at hfits
    obtain ⟨v, hv⟩ := hfits
    rw [hv] at hfollows
    exact hfollows.1

theorem owed_eq_zero
    (hsettled : Settled Op.isReconstruction s) (hf : ∀ r, s₀.placeOf r = none → f r = none) :
    owed s₀ answers late f (gs.map (Goroutine.map Prod.fst)) = 0 := by
  refine List.sum_eq_zero fun m hm => ?_
  obtain ⟨u, hu, rfl⟩ := List.mem_map.1 hm
  obtain ⟨g, hg, rfl⟩ := List.mem_map.1 hu
  exact Recovery.debt_of_ends (h.ends hsettled hg) hf

/-- **At the end everything that was listed has been restored.** -/
theorem restored
    (hsettled : Settled Op.isReconstruction s) : Restored s₀ answers s.shared.data := by
  constructor
  · intro c
    obtain ⟨new, hperm, -, hsum⟩ := h.recovered.services c
    refine ⟨new, hperm, Multiset.coe_eq_coe.1 ?_⟩
    rw [h.owed_eq_zero hsettled (fun r hr => by simp [State.entryOfService, hr]), add_zero] at hsum
    exact hsum
  · intro n
    obtain ⟨new, hperm, -, hsum⟩ := h.recovered.nodes n
    refine ⟨new, hperm, Multiset.coe_eq_coe.1 ?_⟩
    rw [h.owed_eq_zero hsettled (fun r hr => by simp [State.entryOfNode, hr]), add_zero] at hsum
    exact hsum

/-- The goroutine that asks the workers finishes only if all those that it asked have answered. -/
theorem listedBy_ne_none (hsettled : Settled Op.isReconstruction s) :
    ∀ n ∈ s₀.niStorage.entries.map Sigma.snd, s₀.listedBy answers n ≠ none := by
  obtain ⟨g, hg, hop⟩ := h.main
  have hmem := List.mem_of_getElem? hg
  have hruns := (h.watched g hmem).runs
  have hvalid : g.code.1.Valid s₀ answers s.shared.data :=
    h.recovered.valid _ (List.mem_map_of_mem hmem)
  have hends := h.ends hsettled hmem
  rw [hop] at hruns
  rcases hends with hx | hx | hx | hx | ⟨r, -, hx | ⟨e, hx⟩⟩ <;> rw [hx] at hruns hvalid
  · exact hvalid
  all_goals simp [Recovery.Runs] at hruns

end Recovering

end

theorem listedBy_ne_none_iff {s₀ : State} {answers : Answers} {n : ℕ} :
    s₀.listedBy answers n ≠ none ↔ ((s₀.nodes n).connected = true → answers n ≠ none) := by
  unfold State.listedBy
  split_ifs with hconnected <;> simp [hconnected]

/-- **The reconstruction tolerates workers that do not answer only if they are not asked.** In every
interleaving it completes without a fault, and then every listed endpoint has been restored, exactly
if no worker that is connected fails. -/
theorem reconstructs_iff {s₀ : State} (hs₀ : ∃ K, Allocated s₀ K) (answers : Answers) :
    (∀ tr s, (reconstruction s₀).Run tr s →
      (∀ st ∈ tr, answered answers st.src st.event = true) →
        (∀ t ∈ s.threads, t.op.isReconstruction = true → t.code ≠ .halt) ∧
        (reconstruction s₀).Leads (reconstructs answers) (Settled Op.isReconstruction) s ∧
        (Settled Op.isReconstruction s → Restored s₀ answers s.shared.data)) ↔
      ∀ n ∈ s₀.niStorage.entries.map Sigma.snd, (s₀.nodes n).connected = true →
      answers n ≠ none := by
  obtain ⟨K, hK⟩ := hs₀
  constructor
  · intro hall n hn
    obtain ⟨-, hleads, -⟩ := hall [] _ (.init rfl) (List.forall_mem_nil _)
    obtain ⟨tr, s, hrun, hsettled, hevents⟩ := hleads.exists_run (.init rfl)
    rw [List.append_nil] at hrun
    obtain ⟨gs, hgs⟩ := exists_recovering_of_run hK hrun fun st hst => (hevents st hst).1
    exact listedBy_ne_none_iff.1 (hgs.listedBy_ne_none hsettled n hn)
  · intro hanswers tr s hrun hanswered
    obtain ⟨gs, hgs⟩ := exists_recovering_of_run hK hrun hanswered
    have hlisted : ∀ n ∈ s₀.niStorage.entries.map Sigma.snd, s₀.listedBy answers n ≠ none :=
      fun n hn => listedBy_ne_none_iff.2 (hanswers n hn)
    exact ⟨fun t ht => hgs.ne_halt hlisted ht, hgs.leads hK hlisted, hgs.restored⟩

/-! ## Two workers -/

/-- Two connected worker nodes and a service. -/
def twoWorkers : State :=
  { newControlPlane false false with
    niStorage := AList.insert "b" 1 (AList.insert "a" 0 ∅)
    siStorage := AList.insert "f" 0 ∅
    nodes := fun n =>
      { info := ⟨if n = 0 then "a" else "b", "10.0.0.1", 0, 0, 0⟩, endpointMap := ∅,
        connected := true }
    nodeCount := 2
    services := fun _ => { info := ⟨"f", "", 0, 0⟩, reconstructed := false }
    serviceCount := 1 }

theorem allocated_twoWorkers : ∃ K, Allocated twoWorkers K := by
  have hnodes : ∀ name n, twoWorkers.niStorage.lookup name = some n →
      n = 0 ∧ name = "a" ∨ n = 1 ∧ name = "b" := by
    intro name n h
    by_cases hb : name = "b"
    · subst hb
      cases h
      exact Or.inr ⟨rfl, rfl⟩
    · by_cases ha : name = "a"
      · subst ha
        cases h
        exact Or.inl ⟨rfl, rfl⟩
      · simp only [twoWorkers, AList.lookup_insert_ne hb, AList.lookup_insert_ne ha,
          AList.lookup_empty, reduceCtorEq] at h
  refine ⟨{.node 0, .node 1, .service 0}, ?_, ?_, ?_, ?_, ?_, ?_, ?_, ?_⟩
  · intro n hn
    have hn' : n = 0 ∨ n = 1 := by simpa using hn
    rcases hn' with rfl | rfl <;> decide
  · intro c hc
    have hc' : c = 0 := by simpa using hc
    subst hc'
    decide
  · intro e he
    simp at he
  · intro name n h
    rcases hnodes name n h with ⟨rfl, rfl⟩ | ⟨rfl, rfl⟩ <;> exact ⟨by simp, rfl⟩
  · intro name c h
    by_cases hf : name = "f"
    · subst hf
      cases h
      exact ⟨by simp, rfl⟩
    · simp only [twoWorkers, AList.lookup_insert_ne hf, AList.lookup_empty, reduceCtorEq] at h
  · intro c _ e he
    cases he
  · intro e he
    simp at he
  · intro n _ e he
    cases he

/-- The first worker lists a sandbox; the second lists none, or fails. -/
def firstLists (second : Option (List EndpointRecord)) : Answers
  | 0 => some [⟨"sandbox", 8080, "a", "f"⟩]
  | _ => second

theorem reconstructs_of_two_answers : ∃ tr s, (reconstruction twoWorkers).Run tr s ∧
    Settled Op.isReconstruction s ∧ Restored twoWorkers (firstLists (some [])) s.shared.data := by
  have hall := (reconstructs_iff allocated_twoWorkers (firstLists (some []))).2 ?_
  · obtain ⟨-, hleads, -⟩ := hall [] _ (.init rfl) (List.forall_mem_nil _)
    obtain ⟨tr, s, hrun, hsettled, hevents⟩ := hleads.exists_run (.init rfl)
    rw [List.append_nil] at hrun
    obtain ⟨-, -, hrestored⟩ := hall tr s hrun fun st hst => (hevents st hst).1
    exact ⟨tr, s, hrun, hsettled, hrestored hsettled⟩
  · intro n _ _
    unfold firstLists
    split <;> exact Option.some_ne_none _

/-- The second worker fails: the goroutine faults, and what the first one lists is lost. -/
theorem exists_reconstruction_fault : ∃ tr s, (reconstruction twoWorkers).Run tr s ∧
    (∀ st ∈ tr, answered (firstLists none) st.src st.event = true) ∧
    (∃ t ∈ s.threads, t.op = .reconstructEndpointsState ∧ isHalt t.code = true) ∧
    s.threads.length = 1 ∧ (s.shared.data.services 0).endpoints = [] ∧
    (twoWorkers.allListed (firstLists none)).filterMap (twoWorkers.entryOfService 0) ≠ [] := by
  obtain ⟨tr, s, hrun, hP⟩ : ∃ tr s, (reconstruction twoWorkers).Run tr s ∧
      (∀ st ∈ tr, answered (firstLists none) st.src st.event = true) ∧
      (∃ t ∈ s.threads, t.op = .reconstructEndpointsState ∧ isHalt t.code = true) ∧
      s.threads.length = 1 ∧ (s.shared.data.services 0).endpoints = [] :=
    Machine.exists_run_of_play [.run 0 (.order [1, 0]),
      .run 0 (.endpoints [⟨"sandbox", 8080, "a", "f"⟩]), .run 0 .error] rfl (by decide +kernel)
  refine ⟨tr, s, hrun, hP.1, hP.2.1, hP.2.2.1, hP.2.2.2, by decide +kernel⟩

end Dirigent.ControlPlane
