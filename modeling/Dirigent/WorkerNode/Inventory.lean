import Dirigent.WorkerNode.Lifecycle

/-!
# The inventory of the worker

A new leader rebuilds its endpoints from `ListEndpoints`, which lists the map of the sandbox
manager. Two things take a sandbox out of what the list should be, and not out of the map, or the
other way round: when a process exits nobody removes its sandbox from the map; and a containerd
`DeleteSandbox` that fails has removed it before.

Apart from that the list is right. A sandbox that is registered has been added by a `CreateSandbox`
that has seen its process start (`Alive.awaits`), and nobody has removed it, so nobody has killed
its process (`Alive.running`). A sandbox that has been created and is not registered has been
removed by somebody (`Lives.absent`), who has then deleted it.

* **`inventory_of_run`** — if processes exit only when their sandboxes are deleted, and deletions do
  not fail, then `ListEndpoints` is right whenever no call is in progress.
-/

namespace Dirigent.WorkerNode

open Threads

/-- No call is in progress. -/
def Idle (s : Pool Node Thread) : Prop := ∀ t ∈ s.threads, t.inProgress = false

/-- `ListEndpoints` returns, each once, the sandboxes that were created successfully, have not been
deleted and whose process has not exited. -/
structure Inventory (s : Pool Node Thread) : Prop where
  nodup : (s.shared.listEndpoints.map Endpoint.sandboxID).Nodup
  mem_iff : ∀ id, id ∈ s.shared.listEndpoints.map Endpoint.sandboxID ↔
    (∃ info, .create id info .succeeded ∈ s.threads) ∧
    .delete id (.returned .succeeded) ∉ s.threads ∧
      s.shared.isRunning id

/-- The statements after which a containerd `DeleteSandbox` may return an error. -/
def Delete.mayFail : Delete → Bool
  | .removeCNI | .kill | .deleteTask | .deleteContainer => true
  | _ => false

/-- A process exits on its own only when its sandbox is neither being created nor registered, and a
`DeleteSandbox` that has found its sandbox does not fail. -/
def Thread.KeepsInventory (s : Pool Node Thread) (c : Choice) : Thread → Prop
  | .exit id _ => s.shared.sandboxes.lookup id = none ∧ ∀ t ∈ s.threads, t.isCreate id →
      t.inProgress = false
  | .delete _ pc => pc.mayFail → c ≠ .fails
  | _ => True

instance (s : Pool Node Thread) (c : Choice) : DecidablePred (Thread.KeepsInventory s c) := fun
  | .exit id _ => inferInstanceAs (Decidable (s.shared.sandboxes.lookup id = none ∧
      ∀ t ∈ s.threads, t.isCreate id → t.inProgress = false))
  | .delete _ pc => inferInstanceAs (Decidable (pc.mayFail → c ≠ .fails))
  | .createSandbox _ _ | .create _ _ _ | .watch _ _ | .eventHandler _ | .populate
  | .foreignExit _ _ | .done =>
    .isTrue trivial

/-! ## Processes -/

namespace Node

variable {s : Node} {id j : ℕ}

theorem isRunning_startProcess (pid : ℕ) (network : Option ℕ) :
    (s.startProcess id pid network).isRunning id := by
  simp [isRunning, startProcess, AList.lookup_insert]

theorem isRunning_startProcess_of_ne (h : j ≠ id) (pid : ℕ) (network : Option ℕ) :
    (s.startProcess id pid network).isRunning j = s.isRunning j := by
  simp [isRunning, startProcess, AList.lookup_insert_ne h]

theorem isRunning_terminate_of_ne (h : j ≠ id) (status : UInt32) :
    (s.terminate id status).isRunning j = s.isRunning j := by
  unfold terminate isRunning
  split
  · rw [AList.lookup_insert_ne h]
  · rfl

theorem isRunning_congr {s' : Node} (h : s'.processes = s.processes) (id : ℕ) :
    s'.isRunning id = s.isRunning id := by
  unfold isRunning
  rw [h]

end Node

/-- The process runs, and the sandbox is about to be added. -/
def Create.awaits : Create → Bool
  | .resumeVM _ _ | .assignPort _ _ | .vmPID _ _ _ _ | .addSandbox _ => true
  | .addChannel m _ => m.runtime.isContainerd
  | _ => false

section

variable {s s' : Node} {i id : ℕ} {info : ServiceInfo} {c : Choice} {t t' : Thread}
  {new : List Thread}

theorem Deletes.processes {pc pc' : Delete} (h : Deletes s id c pc s' pc') :
    s'.processes = s.processes ∨ pc.role.hasRemoved ∧ s' = s.terminate id 9 := by
  cases h with
  | kill | stopVM network => exact .inr ⟨rfl, rfl⟩
  | _ => exact .inl rfl

theorem Creates.processes {pc pc' : Create} (h : Creates s i id info c pc s' pc' new) :
    s'.processes = s.processes ∧ (pc'.awaits → pc.awaits) ∨
      (∃ pid network, s' = s.startProcess id pid network) ∨
      pc.role.hasRemoved ∧ s' = s.terminate id 9 ∧ pc'.awaits = false := by
  cases h with
  | taskStart | startVM | startSnapshot | startVMLeaves => exact .inr (.inl ⟨_, _, rfl⟩)
  | unlockContainerd m hr => exact .inl ⟨rfl, fun _ => hr⟩
  | addFirecracker m hr => exact .inl ⟨rfl, fun _ => rfl⟩
  | @delete pc _ _ hstep =>
    rcases hstep.processes with hs | ⟨hrole, hs⟩
    · exact .inl ⟨hs, nofun⟩
    · refine .inr (.inr ⟨?_, hs, rfl⟩)
      cases hr : pc.role <;> simp_all [Create.role, Role.hasRemoved]
  | _ => exact .inl ⟨rfl, fun h => by first | exact h | rfl | cases h⟩

/-- **A process that runs goes on**, unless it exits on its own or is killed by a call that has
removed the sandbox. -/
theorem isRunning_step (h : t.step s i c = some (s', t', new)) {id : ℕ}
    (hrunning : s.isRunning id) :
    s'.isRunning id ∨ (∃ status, t = .exit id status) ∨ (t.role id).hasRemoved := by
  have hterminate : ∀ {j : ℕ} {status : UInt32}, (id = j → (t.role id).hasRemoved) →
      s' = s.terminate j status → s'.isRunning id ∨ (∃ status, t = .exit id status) ∨
        (t.role id).hasRemoved := by
    rintro j status hrole rfl
    by_cases hj : id = j
    · exact .inr (.inr (hrole hj))
    · rw [Node.isRunning_terminate_of_ne hj]
      exact .inl hrunning
  have hsame : s'.processes = s.processes → s'.isRunning id ∨ (∃ status, t = .exit id status) ∨
      (t.role id).hasRemoved := by
    intro hs
    rw [Node.isRunning_congr hs]
    exact .inl hrunning
  cases Thread.step_cases h with
  | begin r info | populate | populated | foreignExit => exact hsame rfl
  | @create j _ pc _ _ _ hstep =>
    rcases hstep.processes with ⟨hs, -⟩ | ⟨pid, network, rfl⟩ | ⟨hrole, hs, -⟩
    · exact hsame hs
    · by_cases hj : id = j
      · subst hj
        exact .inl (Node.isRunning_startProcess pid network)
      · rw [Node.isRunning_startProcess_of_ne hj]
        exact .inl hrunning
    · refine hterminate (fun hj => ?_) hs
      simpa [Thread.role, hj] using hrole
  | @delete j pc _ _ hstep =>
    rcases hstep.processes with hs | ⟨hrole, hs⟩
    · exact hsame hs
    · refine hterminate (fun hj => ?_) hs
      simpa [Thread.role, hj] using hrole
  | watch hstep | eventHandler hstep => exact hsame hstep.frame.2.2
  | @exit j status =>
    by_cases hj : id = j
    · exact .inr (.inl ⟨status, by rw [hj]⟩)
    · rw [Node.isRunning_terminate_of_ne hj]
      exact .inl hrunning

/-- The `DeleteSandbox` of a `CreateSandbox` has not found the sandbox. -/
def Create.unfound : Create → Bool
  | .delete (.returned .notFound) | .failed (.notReady .notFound) => true
  | _ => false

theorem Creates.unfound {pc pc' : Create} (h : Creates s i id info c pc s' pc' new)
    (hunfound : pc'.unfound) : s' = s ∧ (pc.unfound ∨ s.sandboxes.lookup id = none) := by
  cases h with
  | deleted d => cases d <;> first | exact ⟨rfl, .inl rfl⟩ | cases hunfound
  | delete hstep =>
    cases hstep with
    | notFound hnone => exact ⟨rfl, .inr hnone⟩
    | _ => cases hunfound
  | fails _ _ hf => cases pc <;> cases hf <;> cases hunfound
  | _ => cases hunfound

theorem Deletes.mayFail {pc : Delete} {f : DeleteFailure}
    (h : Deletes s id c pc s' (.returned (.failed f))) : pc.mayFail ∧ c = .fails := by
  cases h with
  | fails _ _ hf hc => cases pc <;> first | exact ⟨rfl, hc⟩ | cases hf

end

/-! ## What a run keeps -/

/-- The sandbox that is registered has a process that runs. -/
structure Alive (s : Pool Node Thread) (id : ℕ) : Prop where
  lives : Lives s id
  running : s.shared.sandboxes.lookup id ≠ none → s.shared.isRunning id
  awaits : ∀ info pc, .create id info pc ∈ s.threads → pc.awaits → s.shared.isRunning id
  unfound : ∀ info pc, .create id info pc ∈ s.threads → pc.unfound →
    s.shared.sandboxes.lookup id = none
  unfailed : ∀ f, .delete id (.returned (.failed f)) ∉ s.threads

section

variable {s : Pool Node Thread} {s' : Node} {i id : ℕ} {info : ServiceInfo} {c : Choice}
  {t t' u : Thread} {new : List Thread}

theorem create_of_mem_advance {pc : Create}
    (hstep : t.step s.shared i c = some (s', t', new))
    (hu : .create id info pc ∈ advance s.threads i t' new) :
    .create id info pc ∈ s.threads ∨ t' = .create id info pc := by
  rcases mem_of_mem_advance hu with rfl | hsame | hnew
  · exact .inr rfl
  · exact .inl hsame
  · rcases step_new hstep _ hnew with heq | ⟨_, _, _, -, heq⟩ <;> cases heq

theorem create_of_step {pc : Create}
    (hstep : t.step s.shared i c = some (s', .create id info pc, new)) :
    (∃ r, pc = Runtime.first r ∧ t = .createSandbox r info ∧ s.shared.created = id) ∨
      ∃ pc₀, t = .create id info pc₀ ∧ Creates s.shared i id info c pc₀ s' pc new := by
  cases Thread.step_cases hstep with
  | begin r info => exact .inl ⟨r, rfl, rfl, rfl⟩
  | create h => exact .inr ⟨_, rfl, h⟩

theorem Create.isCreating_of_awaits {pc : Create} (h : pc.awaits) : pc.role.isCreating := by
  cases pc with
  | addChannel m pc =>
    have hm : m.runtime.isContainerd = true := h
    simp [Create.role, hm, Role.isCreating]
  | _ => first | rfl | cases h

theorem Create.inProgress_of_awaits {pc : Create} (h : pc.awaits) :
    (Thread.create id info pc).inProgress := by
  cases pc <;> first | rfl | cases h

theorem alive_step (h : Alive s id) (hkeeps : t.KeepsInventory s c) (ht : s.threads[i]? = some t)
    (hstep : t.step s.shared i c = some (s', t', new)) :
    Alive ⟨s', advance s.threads i t' new⟩ id := by
  have htmem : t ∈ s.threads := List.mem_of_getElem? ht
  have hexit : ∀ status, t = .exit id status → s.shared.sandboxes.lookup id = none ∧
      ∀ u ∈ s.threads, u.isCreate id → u.inProgress = false := by
    rintro status rfl
    exact hkeeps
  have hremoved : (t.role id).hasRemoved → 0 < countRole Role.hasRemoved id s.threads := fun hr =>
    countRole_pos htmem hr
  refine ⟨lives_step h.lives ht hstep, ?_, ?_, ?_, ?_⟩
  · intro hne
    by_cases hold : s.shared.sandboxes.lookup id = none
    · obtain ⟨⟨info, m, rfl⟩, hprocesses⟩ := step_added hstep hold hne
      have hrunning := h.awaits info _ htmem rfl
      rwa [← Node.isRunning_congr hprocesses] at hrunning
    · rcases isRunning_step hstep (h.running hold) with hrunning | ⟨status, ht'⟩ | hrole
      · exact hrunning
      · exact absurd (hexit status ht').1 hold
      · have hzero := h.lives.removed hold
        have := hremoved hrole
        omega
  · intro info pc hmem hawaits
    rcases create_of_mem_advance hstep hmem with hold | rfl
    · have hrunning := h.awaits info pc hold hawaits
      rcases isRunning_step hstep hrunning with hrunning | ⟨status, ht'⟩ | hrole
      · exact hrunning
      · have hprogress := (hexit status ht').2 _ hold (by simp [Thread.isCreate])
        rw [Create.inProgress_of_awaits hawaits] at hprogress
        cases hprogress
      · have hcreating : ((Thread.create id info pc).role id).isCreating := by
          simpa [Thread.role] using Create.isCreating_of_awaits hawaits
        have hzero := (h.lives.early (.inr (countRole_pos hold hcreating))).2
        have hle := countRole_mono Role.hasObtained_of_hasRemoved id s.threads
        have := hremoved hrole
        omega
    · rcases create_of_step hstep with ⟨r, rfl, -, -⟩ | ⟨pc₀, rfl, hs⟩
      · cases r <;> cases hawaits
      · rcases hs.processes with ⟨hprocesses, hkeeps⟩ | ⟨pid, network, rfl⟩ | ⟨-, -, hnot⟩
        · have hrunning := h.awaits info pc₀ htmem (hkeeps hawaits)
          rwa [← Node.isRunning_congr hprocesses] at hrunning
        · exact Node.isRunning_startProcess pid network
        · rw [hnot] at hawaits
          cases hawaits
  · intro info pc hmem hunfound
    rcases create_of_mem_advance hstep hmem with hold | rfl
    · have hnone := h.unfound info pc hold hunfound
      by_contra hne
      obtain ⟨⟨info', m, rfl⟩, -⟩ := step_added hstep hnone hne
      have heq :=
        h.lives.eq_of_isCreate htmem (by simp [Thread.isCreate]) hold (by simp [Thread.isCreate])
      cases heq
      cases hunfound
    · rcases create_of_step hstep with ⟨r, rfl, -, -⟩ | ⟨pc₀, rfl, hs⟩
      · cases r <;> cases hunfound
      · obtain ⟨rfl, hor⟩ := hs.unfound hunfound
        exact hor.elim (h.unfound info pc₀ htmem) fun hnone => hnone
  · intro f hmem
    rcases mem_of_mem_advance hmem with rfl | hsame | hnew
    · cases Thread.step_cases hstep with
      | delete hs =>
        obtain ⟨hmay, hfails⟩ := hs.mayFail
        exact hkeeps hmay hfails
    · exact h.unfailed f hsame
    · rcases step_new hstep _ hnew with heq | ⟨_, _, _, -, heq⟩ <;> cases heq

theorem alive_start (h : Alive s id) (r : Runtime) (a : Call) :
    Alive ⟨s.shared, s.threads ++ [a.thread r]⟩ id := by
  have hcreate : ∀ info pc, .create id info pc ∈ s.threads ++ [a.thread r] →
      .create id info pc ∈ s.threads := by
    intro info pc hmem
    rcases List.mem_append.1 hmem with hmem | hmem
    · exact hmem
    · cases a <;> cases List.mem_singleton.1 hmem
  refine ⟨lives_start h.lives r a, h.running, fun info pc hmem =>
    h.awaits info pc (hcreate info pc hmem),
    fun info pc hmem => h.unfound info pc (hcreate info pc hmem), fun f hmem => ?_⟩
  rcases List.mem_append.1 hmem with hmem | hmem
  · exact h.unfailed f hmem
  · cases a <;> cases List.mem_singleton.1 hmem

theorem Node.map_listEndpoints (s : Node) :
    s.listEndpoints.map Endpoint.sandboxID = s.sandboxes.keys := by
  simp [Node.listEndpoints, AList.keys, List.keys, Function.comp_def]

theorem mem_listEndpoints {s : Node} :
    id ∈ s.listEndpoints.map Endpoint.sandboxID ↔ s.sandboxes.lookup id ≠ none := by
  rw [s.map_listEndpoints, ← Option.isSome_iff_ne_none, AList.lookup_isSome, AList.mem_keys]

theorem Alive.succeeded (h : Alive s id) (hidle : Idle s)
    (hne : s.shared.sandboxes.lookup id ≠ none) :
    ∃ info, .create id info .succeeded ∈ s.threads := by
  have hnot : ¬ s.shared.created ≤ id := fun hle => hne (h.lives.early (.inl hle)).1
  have hcreators := h.lives.creators
  rw [if_neg hnot, Nat.zero_add] at hcreators
  obtain ⟨t, ht, hcreate⟩ := List.countP_pos_iff.1 (by omega : 0 < s.threads.countP (·.isCreate id))
  cases t with
  | create id' info pc =>
    obtain rfl : id' = id := of_decide_eq_true hcreate
    refine ⟨info, ?_⟩
    have hrole : (Thread.create id' info pc).role id' = pc.role := by simp [Thread.role]
    have hdone := hidle _ ht
    cases pc with
    | succeeded => exact ht
    | failed f =>
      -- it has failed before it has added the sandbox, or has seen it removed
      have hearly : (Create.failed f).role.isCreating → False := by
        intro hcreating
        rw [← hrole] at hcreating
        exact hne (h.lives.early (.inr (countRole_pos ht hcreating))).1
      have hlate : (Create.failed f).role.hasRemoved → False := by
        intro hremoved
        rw [← hrole] at hremoved
        have := countRole_pos ht hremoved
        have := h.lives.removed hne
        omega
      cases f with
      | notReady d =>
        cases d with
        | notFound => exact absurd (h.unfound info _ ht rfl) hne
        | failed f | succeeded => exact (hlate rfl).elim
      | _ => exact (hearly rfl).elim
    | _ => cases hdone
  | _ => cases hcreate

theorem Alive.deleted (h : Alive s id) (hidle : Idle s)
    (hcreate : .create id info .succeeded ∈ s.threads)
    (hnone : s.shared.sandboxes.lookup id = none) :
    .delete id (.returned .succeeded) ∈ s.threads := by
  have hunique : ∀ u ∈ s.threads, u.isCreate id → u = .create id info .succeeded := fun u hu huc =>
    h.lives.eq_of_isCreate hu huc hcreate (by simp [Thread.isCreate])
  have hremoved : 0 < countRole Role.hasRemoved id s.threads := by
    rcases h.lives.absent hnone with hle | hcreating | hremoved
    · have hcreators := h.lives.creators
      have hpos : 0 < s.threads.countP (·.isCreate id) :=
        List.countP_pos_iff.2 ⟨_, hcreate, by simp [Thread.isCreate]⟩
      rw [if_pos hle] at hcreators
      omega
    · obtain ⟨u, hu, hrole⟩ := List.countP_pos_iff.1 hcreating
      rw [hunique u hu (Thread.isCreate_of_isCreating hrole)] at hrole
      simp [Thread.role, Create.role, Role.isCreating] at hrole
    · exact hremoved
  obtain ⟨u, hu, hrole⟩ := List.countP_pos_iff.1 hremoved
  cases u with
  | create id' info' pc =>
    by_cases hid : id' = id
    · rw [hunique _ hu (by simp [Thread.isCreate, hid])] at hrole
      simp [Thread.role, Create.role, Role.hasRemoved] at hrole
    · simp [Thread.role, hid, Role.hasRemoved] at hrole
  | delete id' pc =>
    by_cases hid : id' = id
    · subst hid
      have hdone := hidle _ hu
      cases pc with
      | returned d =>
        cases d with
        | notFound => simp [Thread.role, Delete.role, Role.hasRemoved] at hrole
        | failed f => exact absurd hu (h.unfailed f)
        | succeeded => exact hu
      | _ => cases hdone
    · simp [Thread.role, hid, Role.hasRemoved] at hrole
  | _ => cases hrole

end

theorem alive_of_run {r : Runtime} {tr : List NodeStep} {s : Pool Node Thread}
    (h : (workerNode r).Run tr s) (hG : ∀ st ∈ tr, StepSatisfies Thread.KeepsInventory st)
    (id : ℕ) : Alive s id := by
  refine run_invariant (I := fun _ s => Alive s id)
    (G := StepSatisfies Thread.KeepsInventory) ?_ ?_ ?_ h hG
  · rintro ⟨s, ts⟩ hinit
    have hlives := lives_of_run (.init hinit) id
    obtain ⟨⟨_, _, _, _, rfl⟩, rfl⟩ := hinit
    exact ⟨hlives, fun hne => absurd rfl hne, by simp, by simp, by simp⟩
  · intro tr s a s' halive _ hs'
    rw [hs']
    exact alive_start halive r a
  · intro tr s i c t s₁ t' new s' halive hkeeps ht hstep hs'
    subst hs'
    exact alive_step halive (hkeeps t ht) ht hstep

/-- **Worker inventory.** In every run in which processes exit on their own only when their
sandboxes are neither being created nor registered, and no deletion fails, `ListEndpoints` is right
whenever no call is in progress. -/
theorem inventory_of_run {r : Runtime} {tr : List NodeStep} {s : Pool Node Thread}
    (h : (workerNode r).Run tr s) (hG : ∀ st ∈ tr, StepSatisfies Thread.KeepsInventory st)
    (hidle : Idle s) : Inventory s := by
  constructor
  · rw [s.shared.map_listEndpoints]
    exact s.shared.sandboxes.keys_nodup
  · intro id
    have halive := alive_of_run h hG id
    rw [mem_listEndpoints]
    constructor
    · intro hne
      refine ⟨halive.succeeded hidle hne, fun hdeleted => ?_, halive.running hne⟩
      have hrole : ((Thread.delete id (.returned .succeeded)).role id).hasRemoved := by
        simp [Thread.role, Delete.role, Role.hasRemoved]
      have := countRole_pos hdeleted hrole
      have := halive.lives.removed hne
      omega
    · rintro ⟨⟨info, hcreate⟩, hnot, -⟩ hnone
      exact hnot (halive.deleted hidle hcreate hnone)

/-- One sandbox is created and deleted, and another one is created. -/
theorem inventory_of_deleted : ∃ tr s, (workerNode .containerd).Run tr s ∧
    (∀ st ∈ tr, StepSatisfies Thread.KeepsInventory st) ∧ Idle s ∧
    s.shared.listEndpoints = [⟨1, "10.0.0.3", "worker", "g", 2001⟩] ∧ Inventory s := by
  obtain ⟨tr, s, hrun, hkeeps, hidle, hlist⟩ : ∃ tr s, (workerNode .containerd).Run tr s ∧
      (∀ st ∈ tr, StepSatisfies Thread.KeepsInventory st) ∧
      (∀ t ∈ s.threads, t.inProgress = false) ∧
      s.shared.listEndpoints = [⟨1, "10.0.0.3", "worker", "g", 2001⟩] :=
    Machine.exists_run_of_play (containerdCreation 2 "f" "10.0.0.2" 100 2000 ++
      .start (.deleteSandbox 0) :: makes 4 [.ok, .ok, .ok, .ok, .ok, .ok, .ok] ++
      containerdCreation 5 "g" "10.0.0.3" 101 2001) (started_init _) (by decide +kernel)
  exact ⟨tr, s, hrun, hkeeps, hidle, hlist, inventory_of_run hrun hkeeps hidle⟩

/-- The process of a sandbox exits, and `ListEndpoints` still lists the sandbox. -/
theorem exists_dead_endpoint : ∃ tr s, (workerNode .containerd).Run tr s ∧
    (∀ t ∈ s.threads, t.inProgress = false) ∧ s.shared.isRunning 0 = false ∧
    s.shared.listEndpoints = [⟨0, "10.0.0.2", "worker", "f", 2000⟩] :=
  Machine.exists_run_of_play (containerdCreation 2 "f" "10.0.0.2" 100 2000 ++
    .start (.exit 0 256) :: makes 4 [.ok]) (started_init _) (by decide +kernel)

end Dirigent.WorkerNode
