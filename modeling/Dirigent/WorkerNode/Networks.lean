import Dirigent.WorkerNode.Inventory

/-!
# The networks of VMs

A VM gets its network from the pool, and the network goes back when the VM is given up.
`CreateSandbox` of Firecracker can fail in many places, and each of them gives back what has been
acquired so far. Calls come one after the other here.

**Ports and sandboxes.** What a `CreateSandbox` has changed is known at each of its statements
(`Create.stage`): it has assigned a port, it has added its sandbox, its `DeleteSandbox` has found
the sandbox. Every statement leads from one stage to the next (`Creates.restores`), and where the
call fails there is nothing left.

**Networks.** A network is in the pool, or registered with a sandbox, or held by a call: in one
place only, since every statement moves it from one place to another (`Creates.uses`). A process
that runs with the network has it registered or is the process of the call that holds it (`Held`).
Three statements break this, because they give a network up whose process may run: the start of a VM
that fails and leaves the process, a VM that does not resume or whose PID cannot be found, and a VM
that does not stop.

* **`exclusive_of_run`** — a failed `CreateSandbox` leaves ports and sandboxes as they were; and a
  network in the pool is not in use, if those three do not happen to a process that runs.
-/

namespace Dirigent.WorkerNode

open Threads

/-! ## The statement -/

/-- A network is in the pool only if no process that was started with it is still running. -/
def Exclusive (s : Node) : Prop :=
  ∀ network, some network ∈ s.network.pool → ∀ id, ∀ p ∈ s.processes.lookup id,
    p.network = some network → p.state ≠ .running

/-- Calls are made one after the other. -/
def OneAtATime (st : NodeStep) : Prop :=
  match st.event with
  | .start (.createSandbox _) | .start (.deleteSandbox _) => Idle st.src
  | _ => True

/-- In this step `CreateSandbox` is called, and becomes thread `i`. -/
def Calls (i : ℕ) (info : ServiceInfo) (st : NodeStep) : Prop :=
  st.event = .start (.createSandbox info) ∧ st.src.threads.length = i

/-- If a `CreateSandbox` fails in this step, it leaves the ports and the sandboxes as they were
before the call. -/
def FailsCleanly (tr : List NodeStep) (st : NodeStep) : Prop :=
  ∀ i c id info f, st.event = .run i c → st.dst.threads[i]? = some (.create id info (.failed f)) →
    ∃ st₀ ∈ tr, Calls i info st₀ ∧ st.dst.shared.portsInUse = st₀.src.shared.portsInUse ∧
      st.dst.shared.sandboxes = st₀.src.shared.sandboxes

/-- Nothing fails that has a process running: the start of a VM that fails leaves no process, and a
VM whose process runs resumes, has a PID and stops. -/
def Thread.StopsVM (s : Pool Node Thread) (c : Choice) : Thread → Prop
  | .create _ _ (.startVM _ _) => ∀ pid, c ≠ .failsRunning pid
  | .create id _ (.resumeVM _ _) | .create id _ (.vmPID _ _ _ _)
  | .create id _ (.delete (.stopVM _))
  | .delete id (.stopVM _) => c = .fails → s.shared.isRunning id = false
  | _ => True

/-! ## Ports and sandboxes -/

/-- What a `CreateSandbox` has changed. -/
inductive Stage
  | nothing
  | assigned (port : ℕ)
  /-- It has assigned a port and added its sandbox. -/
  | added
  /-- Its `DeleteSandbox` has found this metadata. -/
  | found (m : Metadata)
  /-- Its `DeleteSandbox` has not found the sandbox. -/
  | lost

def Create.stage : Create → Stage
  | .vmPID _ _ _ port | .releaseNetwork _ port | .releasePort port => .assigned port
  | .addSandbox m => .assigned m.hostPort
  | .addChannel m _ => if m.runtime.isContainerd then .assigned m.hostPort else .added
  | .watch _ | .probe | .createSnapshot | .resumeSnapshotted | .succeeded | .delete .get => .added
  | .delete (.remove m) => .found m
  | .delete (.unassignPort m) => .assigned m.hostPort
  | .delete (.returned .notFound) | .failed (.notReady .notFound) => .lost
  | _ => .nothing

/-- The ports and sandboxes now, and before the call. -/
def Restores (id : ℕ) (s₀ s : Node) : Stage → Prop
  | .nothing => s.portsInUse = s₀.portsInUse ∧ s.sandboxes = s₀.sandboxes
  | .assigned port => port ∉ s₀.portsInUse ∧ s.portsInUse = insert port s₀.portsInUse ∧
      s.sandboxes = s₀.sandboxes
  | .added =>
    ∃ m : Metadata, m.hostPort ∉ s₀.portsInUse ∧ s.portsInUse = insert m.hostPort s₀.portsInUse ∧
      s.sandboxes = s₀.sandboxes.insert id m
  | .found m => m.hostPort ∉ s₀.portsInUse ∧ s.portsInUse = insert m.hostPort s₀.portsInUse ∧
      s.sandboxes = s₀.sandboxes.insert id m
  | .lost => False

section

variable {s s' s₀ : Node} {i id : ℕ} {info : ServiceInfo} {c : Choice} {new : List Thread}

@[simp] theorem Node.terminate_portsInUse (s : Node) (id : ℕ) (status : UInt32) :
    (s.terminate id status).portsInUse = s.portsInUse := by
  unfold Node.terminate
  split <;> rfl

@[simp] theorem Node.terminate_network (s : Node) (id : ℕ) (status : UInt32) :
    (s.terminate id status).network = s.network := by
  unfold Node.terminate
  split <;> rfl

theorem Restores.congr {stage : Stage} (h : Restores id s₀ s stage)
    (hports : s'.portsInUse = s.portsInUse)
    (hsandboxes : s'.sandboxes = s.sandboxes) : Restores id s₀ s' stage := by
  cases stage with
  | lost => exact h
  | _ => simpa only [Restores, hports, hsandboxes] using h

theorem erase_insert_of_lookup {sandboxes : AList fun _ : ℕ => Metadata} {m : Metadata}
    (h : sandboxes.lookup id = none) : (sandboxes.insert id m).erase id = sandboxes := by
  have hkey : id ∉ sandboxes := AList.lookup_eq_none.1 h
  refine AList.ext ?_
  show List.kerase id (sandboxes.insert id m).entries = sandboxes.entries
  rw [AList.entries_insert_of_notMem hkey]
  exact List.kerase_cons_eq rfl

/-- **A statement of `CreateSandbox` leads from one stage to the next.** -/
theorem Creates.restores {pc pc' : Create} (h : Creates s i id info c pc s' pc' new)
    (hnone : s₀.sandboxes.lookup id = none) (hR : Restores id s₀ s pc.stage) :
    Restores id s₀ s' pc'.stage := by
  cases h with
  | fails _ _ hf => cases pc <;> cases hf <;> exact hR
  | assignContainerd pid port ip _ _ hport | assignFirecracker network pid port ip _ _ hport =>
    obtain ⟨hports, hsandboxes⟩ := hR
    rw [hports] at hport
    exact ⟨hport, by rw [← hports], hsandboxes⟩
  | releasePort port =>
    obtain ⟨hport, hports, hsandboxes⟩ := hR
    refine ⟨?_, hsandboxes⟩
    show s.portsInUse.erase port = s₀.portsInUse
    rw [hports, Finset.erase_insert hport]
  | unlockContainerd m hr | unlockFirecracker m hr =>
    simp only [Create.stage, hr] at hR
    exact hR
  | addContainerd m hr =>
    obtain ⟨hport, hports, hsandboxes⟩ := hR
    exact ⟨m, hport, hports, congrArg (AList.insert id m) hsandboxes⟩
  | addFirecracker m hr =>
    obtain ⟨hport, hports, hsandboxes⟩ := hR
    simp only [Create.stage, hr]
    exact ⟨m, hport, hports, congrArg (AList.insert id m) hsandboxes⟩
  | deleted d => cases d <;> exact hR
  | @delete pcd _ _ hstep =>
    cases hstep with
    | notFound hlookup =>
      obtain ⟨m, -, -, hsandboxes⟩ := hR
      rw [hsandboxes, AList.lookup_insert] at hlookup
      cases hlookup
    | find m hm =>
      obtain ⟨m', hport, hports, hsandboxes⟩ := hR
      rw [hsandboxes, AList.lookup_insert] at hm
      obtain rfl := Option.some.inj hm
      exact ⟨hport, hports, hsandboxes⟩
    | remove m =>
      obtain ⟨hport, hports, hsandboxes⟩ := hR
      refine ⟨hport, hports, ?_⟩
      show s.sandboxes.erase id = s₀.sandboxes
      rw [hsandboxes, erase_insert_of_lookup hnone]
    | unassignContainerd m | unassignFirecracker m =>
      obtain ⟨hport, hports, hsandboxes⟩ := hR
      refine ⟨?_, hsandboxes⟩
      show s.portsInUse.erase m.hostPort = s₀.portsInUse
      rw [hports, Finset.erase_insert hport]
    | kill | stopVM => exact hR.congr (by simp) (by simp)
    | fails _ _ hf => cases pcd <;> cases hf <;> exact hR
    | _ => exact hR.congr rfl rfl
  | _ => exact hR.congr rfl rfl

end

/-! ## Networks -/

def RuntimeMetadata.network : RuntimeMetadata → Option ℕ
  | .containerd _ => none
  | .firecracker network _ => some network

/-- The network that a `DeleteSandbox` has taken from its sandbox. -/
def Delete.network : Delete → Option ℕ
  | .unassignPort m => m.runtime.network
  | .stopVM network | .giveUpNetwork network => some network
  | _ => none

/-- The network that a `CreateSandbox` has got and not registered. -/
def Create.network : Create → Option ℕ
  | .newMachine _ network | .startVM _ network | .resumeVM network _ | .giveUpNetwork network _
  | .vmPID network _ _ _ | .releaseNetwork network _ => some network
  | .assignPort r _ => r.network
  | .addSandbox m => m.runtime.network
  | .addChannel m _ => if m.runtime.isContainerd then m.runtime.network else none
  | .delete pc => pc.network
  | _ => none

def Thread.network : Thread → Option ℕ
  | .create _ _ pc => pc.network
  | .delete _ pc => pc.network
  | _ => none

/-- How many sandboxes are registered with the network. -/
def Node.registered (s : Node) (n : ℕ) : ℕ :=
  s.sandboxes.entries.countP fun e => e.2.runtime.network = some n

/-- The places where the network is, apart from the other threads. -/
def uses (n : ℕ) (s : Node) (network : Option ℕ) : ℕ :=
  s.network.pool.count (some n) + s.registered n + one (network = some n)

section

variable {s s' : Node} {i id n : ℕ} {info : ServiceInfo} {c : Choice} {new : List Thread}

theorem countP_kerase {l : List (Σ _ : ℕ, Metadata)} {m : Metadata} (p : (Σ _ : ℕ, Metadata) → Bool)
    (h : l.dlookup id = some m) : (l.kerase id).countP p + one (p ⟨id, m⟩) = l.countP p := by
  induction l with
  | nil => cases h
  | cons e l ih =>
    obtain ⟨j, m'⟩ := e
    by_cases hj : id = j
    · subst hj
      rw [List.dlookup_cons_eq] at h
      obtain rfl := Option.some.inj h
      have hkerase : List.kerase id (⟨id, m'⟩ :: l) = l := List.kerase_cons_eq rfl
      rw [hkerase, List.countP_cons]
      rfl
    · rw [List.dlookup_cons_ne _ _ hj] at h
      rw [List.kerase_cons_ne hj, List.countP_cons, List.countP_cons, ← ih h]
      omega

theorem Node.registered_insert {m : Metadata} (h : s.sandboxes.lookup id = none) :
    Node.registered { s with sandboxes := s.sandboxes.insert id m } n =
      s.registered n + one (m.runtime.network = some n) := by
  have hkey : id ∉ s.sandboxes := AList.lookup_eq_none.1 h
  unfold Node.registered
  rw [AList.entries_insert_of_notMem hkey, List.countP_cons]
  rfl

theorem Node.registered_erase {m : Metadata} (h : s.sandboxes.lookup id = some m) :
    Node.registered { s with sandboxes := s.sandboxes.erase id } n +
      one (m.runtime.network = some n) = s.registered n :=
  countP_kerase (fun e : Σ _ : ℕ, Metadata => e.2.runtime.network = some n) h

theorem Node.registered_congr (h : s'.sandboxes = s.sandboxes) :
    s'.registered n = s.registered n := by
  unfold Node.registered
  rw [h]

theorem uses_congr {network network' : Option ℕ} (hnetwork : s'.network = s.network)
    (hsandboxes : s'.sandboxes = s.sandboxes) (h : network' = network) :
    uses n s' network' + s.network.made n ≤ uses n s network + s'.network.made n := by
  unfold uses
  rw [Node.registered_congr hsandboxes, hnetwork, h]

theorem uses_giveUpNetwork (network : ℕ) :
    uses n (s.giveUpNetwork network) none + s.network.made n ≤
      uses n s (some network) + (s.giveUpNetwork network).network.made n := by
  have hentries := s.network.giveUpNetwork_entries network n
  have hmade : (s.giveUpNetwork network).network.made n = s.network.made n := by
    show (s.network.giveUpNetwork network).1.made n = s.network.made n
    unfold NetworkPool.giveUpNetwork
    split <;> rfl
  have hle : (if (s.network.giveUpNetwork network).2 && network = n then 1 else 0) ≤
      one (some network = some n) := by
    refine one_le_one (a := (s.network.giveUpNetwork network).2 && network = n) ?_
    simp
  have hzero : one ((none : Option ℕ) = some n) = 0 := by simp [one]
  have hregistered : (s.giveUpNetwork network).registered n = s.registered n :=
    Node.registered_congr rfl
  unfold uses
  rw [hmade, hregistered, hzero]
  show (s.network.giveUpNetwork network).1.pool.count (some n) + _ + 0 + _ ≤ _
  omega

theorem uses_getOneConfig {succeeds : Bool} {config : Option ℕ}
    (h : (s.network.getOneConfig succeeds).2.1.config = config) :
    uses n { s with network := (s.network.getOneConfig succeeds).1 } config + s.network.made n ≤
      uses n s none + (s.network.getOneConfig succeeds).1.made n := by
  have hentries := s.network.getOneConfig_entries succeeds n
  have hone : one (config = some n) = if config = some n then 1 else 0 := by simp [one]
  have hzero : one ((none : Option ℕ) = some n) = 0 := by simp [one]
  have hregistered : Node.registered { s with network := (s.network.getOneConfig succeeds).1 } n =
      s.registered n := Node.registered_congr rfl
  rw [h] at hentries
  unfold uses
  rw [hregistered, hzero, hone]
  show (s.network.getOneConfig succeeds).1.pool.count (some n) + _ + _ + _ ≤ _
  omega

/-- **A statement of `DeleteSandbox` moves a network from one place to another.** -/
theorem Deletes.uses {pc pc' : Delete} (h : Deletes s id c pc s' pc')
    (hremove : ∀ m, pc = .remove m → s.sandboxes.lookup id = some m) :
    WorkerNode.uses n s' pc'.network + s.network.made n ≤
      WorkerNode.uses n s pc.network + s'.network.made n := by
  cases h with
  | remove m =>
    have hregistered := s.registered_erase (n := n) (hremove m rfl)
    have hzero : one ((none : Option ℕ) = some n) = 0 := by simp [one]
    show s.network.pool.count (some n) + Node.registered
      { s with sandboxes := s.sandboxes.erase id } n
      + one (m.runtime.network = some n) + s.network.made n ≤ s.network.pool.count (some n) +
        s.registered n
      + one ((none : Option ℕ) = some n) + s.network.made n
    omega
  | unassignContainerd m pid hr | unassignFirecracker m network pid hr =>
    exact uses_congr rfl rfl (by simp [Delete.network, hr, RuntimeMetadata.network])
  | kill | stopVM => exact uses_congr (by simp) (by simp) rfl
  | fails _ _ hf => cases pc <;> cases hf <;> exact uses_congr rfl rfl rfl
  | giveUpNetwork network => exact uses_giveUpNetwork network
  | _ => exact uses_congr rfl rfl rfl

/-- **A statement of `CreateSandbox` moves a network from one place to another**, or makes one. -/
theorem Creates.uses {pc pc' : Create} (h : Creates s i id info c pc s' pc' new)
    (hadd : ∀ m, pc = .addSandbox m → s.sandboxes.lookup id = none)
    (hremove : ∀ m, pc = .delete (.remove m) → s.sandboxes.lookup id = some m) :
    WorkerNode.uses n s' pc'.network + s.network.made n ≤
      WorkerNode.uses n s pc.network + s'.network.made n := by
  have hzero : one ((none : Option ℕ) = some n) = 0 := by simp [one]
  have hinsert : ∀ {m : Metadata}, s.sandboxes.lookup id = none →
      WorkerNode.uses n { s with sandboxes := s.sandboxes.insert id m } none + s.network.made n ≤
        WorkerNode.uses n s m.runtime.network + s.network.made n := by
    intro m hnone
    have hregistered := s.registered_insert (n := n) (m := m) hnone
    show s.network.pool.count (some n) + Node.registered
      { s with sandboxes := s.sandboxes.insert id m } n
      + one ((none : Option ℕ) = some n) + s.network.made n ≤ s.network.pool.count (some n) +
        s.registered n
      + one (m.runtime.network = some n) + s.network.made n
    omega
  cases h with
  | fails _ _ hf => cases pc <;> cases hf <;> exact uses_congr rfl rfl rfl
  | noNetwork snapshot _ hconfig | getOneConfig snapshot network _ hconfig =>
    exact uses_getOneConfig hconfig
  | giveUpNetwork network f | releaseNetwork network port => exact uses_giveUpNetwork network
  | unlockContainerd m hr | unlockFirecracker m hr =>
    exact uses_congr rfl rfl (by simp [Create.network, hr])
  | addContainerd m hr => exact hinsert (hadd m rfl)
  | addFirecracker m hr =>
    have hnetwork : (Create.addChannel m .lock).network = none := by simp [Create.network, hr]
    rw [hnetwork]
    exact hinsert (hadd m rfl)
  | delete hstep => exact hstep.uses fun m hm => hremove m (by rw [hm])
  | _ => exact uses_congr rfl rfl rfl

end

/-! ## Processes that run -/

/-- The network that the process of the sandbox may be running with. -/
def Delete.runs : Delete → Option ℕ
  | .unassignPort m => m.runtime.network
  | .stopVM network => some network
  | _ => none

def Create.runs : Create → Option ℕ
  | .resumeVM network _ | .vmPID network _ _ _ => some network
  | .assignPort r _ => r.network
  | .addSandbox m => m.runtime.network
  | .delete pc => pc.runs
  | _ => none

def Thread.runs (id : ℕ) : Thread → Option ℕ
  | .create id' _ pc => if id' = id then pc.runs else none
  | .delete id' pc => if id' = id then pc.runs else none
  | _ => none

/-- The process of the sandbox runs with the network. -/
def Node.RunsWith (s : Node) (id n : ℕ) : Prop :=
  ∃ p, s.processes.lookup id = some p ∧ p.network = some n ∧ p.state = .running

/-- The network is registered with the sandbox. -/
def Node.Registers (s : Node) (id n : ℕ) : Prop :=
  ∃ m, s.sandboxes.lookup id = some m ∧ m.runtime.network = some n

/-- A network that a process runs with is registered, or held by a call that knows about the
process. -/
def Held (s : Pool Node Thread) : Prop :=
  ∀ id n, s.shared.RunsWith id n → s.shared.Registers id n ∨ ∃ t ∈ s.threads, t.runs id = some n

section

variable {s s' : Node} {i id j n : ℕ} {info : ServiceInfo} {c : Choice} {t t' : Thread}
  {new : List Thread}

theorem Delete.network_of_runs {pc : Delete} (h : pc.runs = some n) : pc.network = some n := by
  cases pc with
  | unassignPort m | stopVM network => exact h
  | _ => cases h

theorem Thread.network_of_runs (h : t.runs id = some n) : t.network = some n := by
  cases t with
  | create id' info pc =>
    by_cases hid : id' = id
    · have hpc : pc.runs = some n := by simpa [Thread.runs, hid] using h
      cases pc with
      | resumeVM | vmPID | assignPort | addSandbox => exact hpc
      | delete pc => exact Delete.network_of_runs hpc
      | _ => cases hpc
    · simp [Thread.runs, hid] at h
  | delete id' pc =>
    by_cases hid : id' = id
    · have hpc : pc.runs = some n := by simpa [Thread.runs, hid] using h
      exact Delete.network_of_runs hpc
    · simp [Thread.runs, hid] at h
  | _ => cases h

theorem Node.RunsWith.isRunning (h : s.RunsWith id n) : s.isRunning id := by
  obtain ⟨p, hp, -, hrunning⟩ := h
  simp [Node.isRunning, hp, hrunning]

theorem Node.RunsWith.congr (h : s'.RunsWith id n)
    (hprocesses : s'.processes.lookup id = s.processes.lookup id) : s.RunsWith id n := by
  obtain ⟨p, hp, hnetwork, hrunning⟩ := h
  exact ⟨p, by rw [← hprocesses, hp], hnetwork, hrunning⟩

theorem Node.RunsWith.of_terminate {status : UInt32} (h : (s.terminate j status).RunsWith id n) :
    s.RunsWith id n ∧ id ≠ j := by
  obtain ⟨p, hp, hnetwork, hrunning⟩ := h
  unfold Node.terminate at hp
  split at hp
  next pid network hj =>
    by_cases hid : id = j
    · rw [hid, AList.lookup_insert] at hp
      obtain rfl := Option.some.inj hp
      cases hrunning
    · rw [AList.lookup_insert_ne hid] at hp
      exact ⟨⟨p, hp, hnetwork, hrunning⟩, hid⟩
  next hne =>
    refine ⟨⟨p, hp, hnetwork, hrunning⟩, ?_⟩
    rintro rfl
    obtain ⟨pid, network, state⟩ := p
    cases hrunning
    exact hne pid network hp

theorem Node.RunsWith.of_startProcess {pid : ℕ} {network : Option ℕ}
    (h : (s.startProcess j pid network).RunsWith id n) :
    s.RunsWith id n ∧ id ≠ j ∨ id = j ∧ network = some n := by
  obtain ⟨p, hp, hnetwork, hrunning⟩ := h
  by_cases hid : id = j
  · rw [hid] at hp
    have hinsert :=
      AList.lookup_insert (a := j) (b := (⟨pid, network, .running⟩ : Process)) s.processes
    obtain rfl := Option.some.inj (hp.symm.trans hinsert)
    exact .inr ⟨hid, hnetwork⟩
  · have hlookup : (s.startProcess j pid network).processes.lookup id = s.processes.lookup id :=
      AList.lookup_insert_ne hid
    exact .inl ⟨⟨p, by rw [← hlookup, hp], hnetwork, hrunning⟩, hid⟩

/-- What a `DeleteSandbox` does to the network that the process of its sandbox runs with. -/
theorem Deletes.runs {pc pc' : Delete} (h : Deletes s id c pc s' pc') (hruns : s'.RunsWith id n)
    (hremove : ∀ m, pc = .remove m → s.sandboxes.lookup id = some m)
    (hstop : ∀ network, pc = .stopVM network → c = .fails → s.isRunning id = false) :
    s.RunsWith id n ∧ (s.Registers id n ∨ pc.runs = some n → s'.Registers id n ∨
      pc'.runs = some n) := by
  cases h with
  | notFound | find m hm => exact ⟨hruns, Or.imp_right nofun⟩
  | remove m =>
    refine ⟨hruns.congr rfl, ?_⟩
    rintro (⟨m', hm', hnetwork⟩ | hcontra)
    · obtain rfl := Option.some.inj ((hremove m rfl).symm.trans hm')
      exact .inr hnetwork
    · cases hcontra
  | unassignContainerd m pid hr =>
    refine ⟨hruns.congr rfl, Or.imp_right fun hcontra => ?_⟩
    simp [Delete.runs, hr, RuntimeMetadata.network] at hcontra
  | unassignFirecracker m network pid hr =>
    refine ⟨hruns.congr rfl, Or.imp_right fun hnetwork => ?_⟩
    simpa [Delete.runs, hr, RuntimeMetadata.network] using hnetwork
  | kill | stopVM network => exact absurd rfl hruns.of_terminate.2
  | stopVMFails network hc =>
    have hnot := hstop network rfl hc
    rw [hruns.isRunning] at hnot
    cases hnot
  | fails _ _ hf => cases pc <;> cases hf <;> exact ⟨hruns, Or.imp_right nofun⟩
  | removeCNI | deleteTask | deleteContainer | giveUpNetwork network =>
    exact ⟨hruns.congr rfl, Or.imp_right nofun⟩

theorem Creates.runs {ts : List Thread} {pc pc' : Create} (h : Creates s i id info c pc s' pc' new)
    (hruns : s'.RunsWith id n)
    (hadd : ∀ m, pc = .addSandbox m → s.sandboxes.lookup id = none)
    (hremove : ∀ m, pc = .delete (.remove m) → s.sandboxes.lookup id = some m)
    (hstops : (Thread.create id info pc).StopsVM ⟨s, ts⟩ c) :
    pc'.runs = some n ∨
      s.RunsWith id n ∧ (s.Registers id n ∨ pc.runs = some n → s'.Registers id n ∨
        pc'.runs = some n) := by
  have hinsert : ∀ {m : Metadata} {pc₁ : Create}, s.sandboxes.lookup id = none →
      s.Registers id n ∨ m.runtime.network = some n →
      Node.Registers { s with sandboxes := s.sandboxes.insert id m } id n ∨ pc₁.runs = some n := by
    rintro m pc₁ hnone (⟨m', hm', -⟩ | hnetwork)
    · rw [hnone] at hm'
      cases hm'
    · exact .inl ⟨m, AList.lookup_insert s.sandboxes, hnetwork⟩
  cases h with
  | taskStart ip pid =>
    rcases hruns.of_startProcess with ⟨-, hne⟩ | ⟨-, hcontra⟩
    · exact absurd rfl hne
    · cases hcontra
  | startVM network pid | startSnapshot network pid =>
    rcases hruns.of_startProcess with ⟨-, hne⟩ | ⟨-, hnetwork⟩
    · exact absurd rfl hne
    · exact .inl hnetwork
  | startVMLeaves snapshot network pid hc => exact absurd hc (hstops pid)
  | resumeVMFails network pid hc | vmPIDFails network pid ip port hc =>
    have hnot := hstops hc
    rw [hruns.isRunning] at hnot
    cases hnot
  | addContainerd m hr | addFirecracker m hr => exact .inr ⟨hruns.congr rfl, hinsert (hadd m rfl)⟩
  | delete hstep =>
    refine .inr (hstep.runs hruns (fun m hm => hremove m (by rw [hm])) ?_)
    rintro network rfl hc
    exact hstops hc
  | fails _ _ hf => cases pc <;> cases hf <;> exact .inr ⟨hruns, Or.imp_right nofun⟩
  | _ => exact .inr ⟨hruns.congr rfl, fun h => by first | exact h | exact h.imp_right nofun⟩

end

/-! ## One call at a time -/

/-- What is known of a call in progress, thread `i`. -/
def Fits (tr : List NodeStep) (s : Node) (i : ℕ) : Thread → Prop
  | .createSandbox _ info => ∃ st ∈ tr, Calls i info st ∧ s.portsInUse = st.src.shared.portsInUse ∧
      s.sandboxes = st.src.shared.sandboxes
  | .create id info pc => ∃ st ∈ tr, Calls i info st ∧ st.src.shared.sandboxes.lookup id = none ∧
      Restores id st.src.shared s pc.stage
  | .delete id (.remove m) => s.sandboxes.lookup id = some m
  | _ => True

section

variable {tr : List NodeStep} {st : NodeStep} {s s' : Node} {i id n : ℕ} {info : ServiceInfo}
  {c : Choice} {t t' : Thread} {new : List Thread}

theorem Fits.congr (h : Fits tr s i t) (hports : s'.portsInUse = s.portsInUse)
    (hsandboxes : s'.sandboxes = s.sandboxes) : Fits (st :: tr) s' i t := by
  cases t with
  | createSandbox r info =>
    obtain ⟨st₀, hst₀, hcalls, hp, hs⟩ := h
    exact ⟨st₀, List.mem_cons_of_mem _ hst₀, hcalls, hports.trans hp, hsandboxes.trans hs⟩
  | create id info pc =>
    obtain ⟨st₀, hst₀, hcalls, hnone, hR⟩ := h
    exact ⟨st₀, List.mem_cons_of_mem _ hst₀, hcalls, hnone, hR.congr hports hsandboxes⟩
  | delete id pc =>
    cases pc with
    | remove m =>
      show s'.sandboxes.lookup id = some m
      rw [hsandboxes]
      exact h
    | _ => trivial
  | _ => trivial

/-- While a `CreateSandbox` is about to add its sandbox, the sandbox is not there; while its
`DeleteSandbox` is about to remove it, it is. -/
theorem Fits.lookup {pc : Create} (h : Fits tr s i (.create id info pc)) :
    (∀ m, pc = .addSandbox m → s.sandboxes.lookup id = none) ∧
      ∀ m, pc = .delete (.remove m) → s.sandboxes.lookup id = some m := by
  obtain ⟨st₀, -, -, hnone, hR⟩ := h
  constructor
  · rintro m rfl
    obtain ⟨-, -, hsandboxes⟩ := hR
    rw [hsandboxes, hnone]
  · rintro m rfl
    obtain ⟨-, -, hsandboxes⟩ := hR
    rw [hsandboxes, AList.lookup_insert]

/-- **A step of a call keeps what is known of it.** -/
theorem Fits.step (h : Fits tr s i t) (hs : t.step s i c = some (s', t', new))
    (hprogress : t.inProgress)
    (hlives : s.sandboxes.lookup s.created = none) : Fits (st :: tr) s' i t' := by
  cases Thread.step_cases hs with
  | begin r info =>
    obtain ⟨st₀, hst₀, hcalls, hports, hsandboxes⟩ := h
    refine ⟨st₀, List.mem_cons_of_mem _ hst₀, hcalls, ?_, ?_⟩
    · rw [← hsandboxes, hlives]
    · cases r <;> exact ⟨hports, hsandboxes⟩
  | create hstep =>
    obtain ⟨st₀, hst₀, hcalls, hnone, hR⟩ := h
    exact ⟨st₀, List.mem_cons_of_mem _ hst₀, hcalls, hnone, hstep.restores hnone hR⟩
  | delete hstep =>
    cases hstep with
    | find m hm => exact hm
    | _ => trivial
  | _ => cases hprogress

theorem step_frame (hs : t.step s i c = some (s', t', new)) (hprogress : t.inProgress = false) :
    s'.portsInUse = s.portsInUse ∧ s'.sandboxes = s.sandboxes ∧ t'.inProgress = false ∧
      t.network = none ∧ t'.network = none := by
  cases Thread.step_cases hs with
  | begin => cases hprogress
  | @create id info pc _ _ _ hstep =>
    cases pc with
    | failed f | succeeded => cases hs
    | _ => cases hprogress
  | @delete id pc _ _ hstep =>
    cases pc with
    | returned d => cases hs
    | _ => cases hprogress
  | watch hstep | eventHandler hstep => cases hstep <;> exact ⟨rfl, rfl, rfl, rfl, rfl⟩
  | populate | populated | foreignExit => exact ⟨rfl, rfl, rfl, rfl, rfl⟩
  | @exit id' status => exact ⟨by simp, by simp, rfl, rfl, rfl⟩

theorem inProgress_of_create {pc : Create}
    (hs : t.step s i c = some (s', .create id info pc, new)) : t.inProgress := by
  cases Thread.step_cases hs with
  | begin => rfl
  | @create _ _ pc₀ _ _ _ hstep =>
    cases pc₀ with
    | failed f | succeeded => cases hs
    | _ => rfl

theorem new_network (hs : t.step s i c = some (s', t', new)) :
    ∀ u ∈ new, u.inProgress = false ∧ u.network = none := by
  intro u hu
  rcases step_new hs u hu with rfl | ⟨_, _, _, -, rfl⟩ <;> exact ⟨rfl, rfl⟩

theorem uses_step (hs : t.step s i c = some (s', t', new)) (hfits : t.inProgress → Fits tr s i t) :
    uses n s' t'.network + s.network.made n ≤ uses n s t.network + s'.network.made n := by
  cases Thread.step_cases hs with
  | begin r info => cases r <;> exact uses_congr rfl rfl rfl
  | @create id info pc pc' _ _ hstep =>
    have hlookup : (∀ m, pc = .addSandbox m → s.sandboxes.lookup id = none) ∧
        ∀ m, pc = .delete (.remove m) → s.sandboxes.lookup id = some m := by
      constructor
      · rintro m rfl
        exact (hfits rfl).lookup.1 m rfl
      · rintro m rfl
        exact (hfits rfl).lookup.2 m rfl
    exact hstep.uses hlookup.1 hlookup.2
  | @delete id pc pc' _ hstep =>
    refine hstep.uses ?_
    rintro m rfl
    exact hfits rfl
  | watch hstep | eventHandler hstep => cases hstep <;> exact uses_congr rfl rfl rfl
  | @populate np hnp =>
    have hentries := NetworkPool.populate_entries hnp n
    have hregistered : Node.registered { s with network := np } n = s.registered n :=
      Node.registered_congr rfl
    unfold uses
    rw [hregistered]
    show np.pool.count (some n) + _ + _ + _ ≤ _ + _ + _ + np.made n
    omega
  | populated | foreignExit => exact uses_congr rfl rfl rfl
  | @exit id' status => exact uses_congr (by simp) (by simp) rfl

theorem Node.Registers.congr (h : s.Registers id n)
    (hlookup : s'.sandboxes.lookup id = s.sandboxes.lookup id) : s'.Registers id n := by
  obtain ⟨m, hm, hnetwork⟩ := h
  exact ⟨m, by rw [hlookup, hm], hnetwork⟩

/-- What a step does to the network that a process runs with. -/
theorem runs_step {ts : List Thread} (hs : t.step s i c = some (s', t', new))
    (hfits : t.inProgress → Fits tr s i t)
    (hstops : t.StopsVM ⟨s, ts⟩ c) (hruns : s'.RunsWith id n) :
    t'.runs id = some n ∨ s.RunsWith id n ∧ (s.Registers id n ∨ t.runs id = some n →
      s'.Registers id n ∨ t'.runs id = some n) := by
  -- a thread that has nothing to do with this sandbox
  have hother : t.runs id = none → s.RunsWith id n →
      s'.sandboxes.lookup id = s.sandboxes.lookup id → t'.runs id = some n ∨ s.RunsWith id n ∧
        (s.Registers id n ∨ t.runs id = some n → s'.Registers id n ∨ t'.runs id = some n) := by
    intro hnone hruns hlookup
    refine .inr ⟨hruns, ?_⟩
    rintro (hregisters | hcontra)
    · exact .inl (hregisters.congr hlookup)
    · rw [hnone] at hcontra
      cases hcontra
  cases Thread.step_cases hs with
  | begin r info | populate | populated | foreignExit => exact hother rfl (hruns.congr rfl) rfl
  | @create j info pc pc' _ _ hstep =>
    by_cases hj : j = id
    · subst hj
      have hlookup : (∀ m, pc = .addSandbox m → s.sandboxes.lookup j = none) ∧
          ∀ m, pc = .delete (.remove m) → s.sandboxes.lookup j = some m := by
        constructor
        · rintro m rfl
          exact (hfits rfl).lookup.1 m rfl
        · rintro m rfl
          exact (hfits rfl).lookup.2 m rfl
      simpa only [Thread.runs, if_true] using hstep.runs hruns hlookup.1 hlookup.2 hstops
    · have hid : id ≠ j := Ne.symm hj
      refine hother (if_neg hj) ?_ (hstep.other.2 id hid)
      rcases hstep.processes with ⟨hsame, -⟩ | ⟨pid, network, rfl⟩ | ⟨-, rfl, -⟩
      · exact hruns.congr (by rw [hsame])
      · rcases hruns.of_startProcess with ⟨hruns, -⟩ | ⟨heq, -⟩
        · exact hruns
        · exact absurd heq hid
      · exact hruns.of_terminate.1
  | @delete j pc pc' _ hstep =>
    by_cases hj : j = id
    · subst hj
      have hruns' := hstep.runs hruns (by rintro m rfl; exact hfits rfl) (by
        rintro network rfl hc
        exact hstops hc)
      simpa only [Thread.runs, if_true] using Or.inr hruns'
    · have hid : id ≠ j := Ne.symm hj
      refine hother (if_neg hj) ?_ (hstep.other.2 id hid)
      rcases hstep.processes with hsame | ⟨-, rfl⟩
      · exact hruns.congr (by rw [hsame])
      · exact hruns.of_terminate.1
  | watch hstep | eventHandler hstep =>
    obtain ⟨hsandboxes, -, hprocesses⟩ := hstep.frame
    exact hother rfl (hruns.congr (by rw [hprocesses])) (by rw [hsandboxes])
  | exit => exact hother rfl hruns.of_terminate.1 (by simp)

end

/-- **What holds in every run with one call at a time.** -/
structure Serial (tr : List NodeStep) (s : Pool Node Thread) : Prop where
  lives : ∀ id, Lives s id
  one : s.threads.countP Thread.inProgress ≤ 1
  fits : ∀ (i : ℕ) (t : Thread), s.threads[i]? = some t → t.inProgress → Fits tr s.shared i t
  /-- Each network is in one place. -/
  places : ∀ n, s.shared.network.pool.count (some n) + s.shared.registered n
    + s.threads.countP (fun t => t.network = some n) ≤ s.shared.network.made n
  clean : ∀ st ∈ tr, FailsCleanly tr st
  held : (∀ st ∈ tr, StepSatisfies Thread.StopsVM st) → Held s

section

variable {r : Runtime} {tr : List NodeStep} {s : Pool Node Thread} {s₁ : Node} {i : ℕ} {c : Choice}
  {t t' : Thread} {new : List Thread}

theorem serial_init (h : (workerNode r).init s) : Serial [] s := by
  have hlives := lives_of_run (.init h)
  obtain ⟨s, ts⟩ := s
  obtain ⟨⟨_, _, _, _, rfl⟩, rfl⟩ := h
  refine ⟨hlives, by simp [Thread.inProgress], ?_, ?_, by simp, ?_⟩
  · intro i t ht hprogress
    rcases i with _ | _ | i
    · obtain rfl := Option.some.inj ht
      cases hprogress
    · obtain rfl := Option.some.inj ht
      cases hprogress
    · cases ht
  · intro n
    simp [Node.registered, Thread.network]
  · rintro - id n ⟨p, hp, -⟩
    cases hp

theorem FailsCleanly.cons {st st' : NodeStep} (h : FailsCleanly tr st) :
    FailsCleanly (st' :: tr) st := by
  intro i c id info f hevent hfailed
  obtain ⟨st₀, hst₀, hclean⟩ := h i c id info f hevent hfailed
  exact ⟨st₀, List.mem_cons_of_mem _ hst₀, hclean⟩

theorem Serial.step (h : Serial tr s) (ht : s.threads[i]? = some t)
    (hs : t.step s.shared i c = some (s₁, t', new)) :
    Serial (⟨s, .run i c, ⟨s₁, advance s.threads i t' new⟩⟩ :: tr)
      ⟨s₁, advance s.threads i t' new⟩ := by
  have hfits : t.inProgress → Fits tr s.shared i t := h.fits i t ht
  have hfresh : s.shared.sandboxes.lookup s.shared.created = none :=
    ((h.lives s.shared.created).early (.inl le_rfl)).1
  have hnew := new_network hs
  -- the thread that moves, if it is a call, is the only one
  have hfits' : ∀ (st : NodeStep), t.inProgress → Fits (st :: tr) s₁ i t' := fun st hprogress =>
    (hfits hprogress).step hs hprogress hfresh
  refine ⟨fun id => lives_step (h.lives id) ht hs, ?_, ?_, ?_, ?_, ?_⟩
  · have hcount := countP_advance Thread.inProgress ht t' new
    have hzero : new.countP Thread.inProgress = 0 := by
      rw [List.countP_eq_zero]
      intro u hu
      rw [(hnew u hu).1]
      exact Bool.false_ne_true
    have hone := h.one
    rw [hzero] at hcount
    cases hprogress : t.inProgress with
    | false =>
      rw [hprogress, (step_frame hs hprogress).2.2.1] at hcount
      show (advance s.threads i t' new).countP Thread.inProgress ≤ 1
      omega
    | true =>
      rw [hprogress] at hcount
      have hle : (if t'.inProgress = true then 1 else 0) ≤ 1 := by split <;> omega
      show (advance s.threads i t' new).countP Thread.inProgress ≤ 1
      simp only [if_true] at hcount
      omega
  · intro j u hj hprogress
    rcases getElem?_advance ht hj with ⟨rfl, rfl⟩ | ⟨hji, hju⟩ | ⟨-, hu⟩
    · cases hmoved : t.inProgress with
      | true => exact hfits' _ hmoved
      | false =>
        rw [(step_frame hs hmoved).2.2.1] at hprogress
        cases hprogress
    · cases hmoved : t.inProgress with
      | true =>
        have hfalse := eq_false_of_countP_le_one h.one ht hmoved hju hji
        rw [hprogress] at hfalse
        cases hfalse
      | false =>
        obtain ⟨hports, hsandboxes, -⟩ := step_frame hs hmoved
        exact (h.fits j u hju hprogress).congr hports hsandboxes
    · rw [(hnew u hu).1] at hprogress
      cases hprogress
  · intro n
    have huses := uses_step (n := n) hs hfits
    have hcount := countP_advance (fun u : Thread => decide (u.network = some n)) ht t' new
    have hzero : new.countP (fun u : Thread => decide (u.network = some n)) = 0 := by
      rw [List.countP_eq_zero]
      intro u hu
      simp [(hnew u hu).2]
    have hplaces := h.places n
    rw [hzero] at hcount
    simp only [uses, WorkerNode.one] at huses
    show s₁.network.pool.count (some n) + s₁.registered n
      + (advance s.threads i t' new).countP (fun u => decide (u.network = some n)) ≤
        s₁.network.made n
    omega
  · intro st hst
    rcases List.mem_cons.1 hst with rfl | hst
    · intro j c' id info f hevent hfailed
      cases hevent
      have ht' : t' = .create id info (.failed f) :=
        Option.some.inj ((getElem?_advance_self t' new ht).symm.trans hfailed)
      cases hmoved : t.inProgress with
      | true =>
        have hfit := hfits' ⟨s, .run i c, ⟨s₁, advance s.threads i t' new⟩⟩ hmoved
        rw [ht'] at hfit
        obtain ⟨st₀, hst₀, hcalls, -, hR⟩ := hfit
        refine ⟨st₀, ?_, hcalls, ?_⟩
        · rw [ht']
          exact hst₀
        · cases f with
          | notReady d => cases d <;> first | exact hR | exact hR.elim
          | _ => exact hR
      | false =>
        rw [ht'] at hs
        rw [inProgress_of_create hs] at hmoved
        cases hmoved
    · exact (h.clean st hst).cons
  · intro hstops id n hruns
    have hstop : t.StopsVM s c := hstops _ List.mem_cons_self t ht
    have hself := mem_advance_self t' new ht
    rcases runs_step hs hfits hstop hruns with hruns' | ⟨hold, hmove⟩
    · exact .inr ⟨t', hself, hruns'⟩
    · rcases h.held (fun st hst => hstops st (List.mem_cons_of_mem _ hst)) id n hold with
        hregisters | ⟨u, hu, hruns'⟩
      · exact (hmove (.inl hregisters)).imp_right fun hruns' => ⟨t', hself, hruns'⟩
      · by_cases hut : u = t
        · subst hut
          exact (hmove (.inr hruns')).imp_right fun hruns' => ⟨t', hself, hruns'⟩
        · exact .inr ⟨u, mem_advance_of_ne _ _ ht hu hut, hruns'⟩

theorem Serial.start (h : Serial tr s) (a : Call) {s' : Pool Node Thread}
    (hs' : s' = ⟨s.shared, s.threads ++ [a.thread r]⟩) (hone : OneAtATime ⟨s, .start a, s'⟩) :
    Serial (⟨s, .start a, s'⟩ :: tr) s' := by
  subst hs'
  have hidle : (a.thread r).inProgress → s.threads.countP Thread.inProgress = 0 := by
    intro hprogress
    rw [List.countP_eq_zero]
    intro u hu
    cases a with
    | createSandbox info | deleteSandbox id => simp [hone u hu]
    | _ => cases hprogress
  have hnetwork : (a.thread r).network = none := by cases a <;> rfl
  refine ⟨fun id => lives_start (h.lives id) r a, ?_, ?_, ?_, ?_, ?_⟩
  · rw [List.countP_append, List.countP_singleton]
    have := h.one
    split
    next hprogress => rw [hidle hprogress]
    next => omega
  · intro i t ht hprogress
    rcases lt_trichotomy i s.threads.length with hlt | rfl | hgt
    · rw [List.getElem?_append_left hlt] at ht
      exact (h.fits i t ht hprogress).congr rfl rfl
    · obtain rfl : a.thread r = t := by simpa using ht
      cases a with
      | createSandbox info => exact ⟨_, List.mem_cons_self, ⟨rfl, rfl⟩, rfl, rfl⟩
      | deleteSandbox id => trivial
      | _ => cases hprogress
    · rw [List.getElem?_eq_none (by simpa using hgt)] at ht
      cases ht
  · intro n
    have hplaces := h.places n
    simpa [List.countP_append, hnetwork] using hplaces
  · intro st hst
    rcases List.mem_cons.1 hst with rfl | hst
    · intro i c id info f hevent
      cases hevent
    · exact (h.clean st hst).cons
  · intro hstops id n hruns
    rcases h.held (fun st hst => hstops st (List.mem_cons_of_mem _ hst)) id n hruns with
      hregisters | ⟨u, hu, hruns'⟩
    · exact .inl hregisters
    · exact .inr ⟨u, List.mem_append_left _ hu, hruns'⟩

theorem serial_of_run (h : (workerNode r).Run tr s) (hG : ∀ st ∈ tr, OneAtATime st) :
    Serial tr s := by
  refine run_invariant (fun s => serial_init) ?_ ?_ h hG
  · intro tr s a s' hI hone hs'
    exact hI.start a hs' hone
  · intro tr s i c t s₁ t' new s' hI _ ht hs hs'
    subst hs'
    exact hI.step ht hs

/-- A network in the pool is nowhere else. -/
theorem Serial.exclusive (h : Serial tr s) (hheld : Held s) : Exclusive s.shared := by
  intro n hpool id p hp hnetwork hrunning
  have hplaces := h.places n
  have hmade : s.shared.network.made n ≤ 1 := by
    unfold NetworkPool.made
    split <;> omega
  have hcount : 0 < s.shared.network.pool.count (some n) := List.count_pos_iff.2 hpool
  rcases hheld id n ⟨p, hp, hnetwork, hrunning⟩ with ⟨m, hm, hm'⟩ | ⟨t, ht, hruns⟩
  · have hregistered : 0 < s.shared.registered n :=
      List.countP_pos_iff.2 ⟨⟨id, m⟩, List.of_mem_dlookup hm, by simpa using hm'⟩
    omega
  · have hthreads : 0 < s.threads.countP (fun t => t.network = some n) :=
      List.countP_pos_iff.2 ⟨t, ht, by simpa using Thread.network_of_runs hruns⟩
    omega

end

/-- **Networks are exclusive, and failures are clean.** -/
theorem exclusive_of_run {r : Runtime} {tr : List NodeStep} {s : Pool Node Thread}
    (h : (workerNode r).Run tr s) (hG : ∀ st ∈ tr, OneAtATime st) :
    (∀ st ∈ tr, FailsCleanly tr st) ∧
      ((∀ st ∈ tr, StepSatisfies Thread.StopsVM st) → Exclusive s.shared) := by
  have hserial := serial_of_run h hG
  exact ⟨hserial.clean, fun hstops => hserial.exclusive (hserial.held hstops)⟩

instance : DecidablePred OneAtATime := fun
  | ⟨s, .start (.createSandbox _), _⟩ | ⟨s, .start (.deleteSandbox _), _⟩ =>
    inferInstanceAs (Decidable (∀ t ∈ s.threads, t.inProgress = false))
  | ⟨_, .start (.exit _ _), _⟩ | ⟨_, .start (.foreignExit _ _), _⟩ | ⟨_, .run _ _, _⟩ =>
    .isTrue trivial

instance : (c : Choice) → Decidable (∀ pid, c ≠ .failsRunning pid)
  | .failsRunning pid => .isFalse fun h => h pid rfl
  | .ok | .fails | .ip _ | .pid _ | .port _ | .batch _ => .isTrue fun _ => Choice.noConfusion

instance (s : Pool Node Thread) (c : Choice) : DecidablePred (Thread.StopsVM s c) := fun t => by
  unfold Thread.StopsVM
  split <;> infer_instance

/-- One sandbox is deleted, and the next one fails when its process has exited: both networks are in
the pool again. -/
theorem exclusive_of_failed :
    ∃ tr s, (workerNode .firecracker).Run tr s ∧ (∀ st ∈ tr, OneAtATime st) ∧
    (∀ st ∈ tr, StepSatisfies Thread.StopsVM st) ∧
    .create 1 ⟨"g", "image", 80⟩ (.failed .pid) ∈ s.threads ∧
    some 0 ∈ s.shared.network.pool ∧ some 1 ∈ s.shared.network.pool ∧
    (∀ st ∈ tr, FailsCleanly tr st) ∧ Exclusive s.shared := by
  obtain ⟨tr, s, hrun, hone, hstops, hfailed, hfirst, hsecond⟩ :
      ∃ tr s, (workerNode .firecracker).Run tr s ∧ (∀ st ∈ tr, OneAtATime st) ∧
      (∀ st ∈ tr, StepSatisfies Thread.StopsVM st) ∧
      .create 1 ⟨"g", "image", 80⟩ (.failed .pid) ∈ s.threads ∧
      some 0 ∈ s.shared.network.pool ∧ some 1 ∈ s.shared.network.pool :=
    Machine.exists_run_of_play (poolFilled ++ firecrackerCreation 2 "f" 100 2000 ++
      .start (.deleteSandbox 0) :: makes 4 [.ok, .ok, .ok, .ok, .ok] ++
      .start (.createSandbox ⟨"g", "image", 80⟩) ::
      makes 5 [.ok, .ok, .ok, .ok, .pid 101, .port 2001] ++ .start (.exit 1 256) :: makes 6 [.ok] ++
      makes 5 [.fails, .ok, .ok]) (started_init _) (by decide +kernel)
  obtain ⟨hclean, hexclusive⟩ := exclusive_of_run hrun hone
  exact ⟨tr, s, hrun, hone, hstops, hfailed, hfirst, hsecond, hclean, hexclusive hstops⟩

/-- The PID of a VM cannot be found, and its network is given up while its process runs. -/
theorem exists_network_in_use :
    ∃ tr s, (workerNode .firecracker).Run tr s ∧ (∀ st ∈ tr, OneAtATime st) ∧
    some 0 ∈ s.shared.network.pool ∧
    s.shared.processes.lookup 0 = some ⟨100, some 0, .running⟩ :=
  Machine.exists_run_of_play (poolFilled ++ .start (.createSandbox ⟨"f", "image", 80⟩) ::
    makes 2 [.ok, .ok, .ok, .ok, .pid 100, .port 2000, .fails, .ok, .ok]) (started_init _)
    (by decide +kernel)

end Dirigent.WorkerNode
