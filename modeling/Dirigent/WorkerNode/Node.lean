import Dirigent.RWMutex
import Dirigent.WorkerNode.NetworkPool
import Mathlib.Data.List.AList

/-!
# The worker node

A worker node creates and deletes sandboxes, in containers or in Firecracker VMs. `CreateSandbox`
acquires what a sandbox needs step by step (a network, the container or VM with its process, a host
port, the entries of the sandbox manager and of the process monitor), and the two runtimes give back
what they have when a step fails, or do not. `DeleteSandbox` takes the entry from the sandbox
manager and releases everything else.

The process monitor hears from the kernel which processes have exited, and sends the exit code on
the channel that is registered for the PID. A goroutine waits on the channel of each sandbox for one
exit code, and reports the failure of the sandbox to the control plane unless the code says
`SIGKILL`.

* `Node` — what the goroutines share, with the processes and the exit events of the kernel.
* `Create`, `Delete`, `Handler`, `Watch` — where each of them is.
* `Thread.step` — the statements.
* `workerNode` — all interleavings of any number of calls with exits of processes.

Names of sandboxes are drawn at random; here they are numbered, so that no name is drawn twice. The
metadata of a sandbox, its channel, its container, task and process all have its number. Calls to
the outside succeed or fail as the choice of the step says. A process that is killed exits at once,
with the status 9. A critical section of the network pool is one step (see `networkPool` for the
pool by itself). Left out: the rules of iptables, logs, durations, and the paths of snapshots.
-/

namespace Dirigent.WorkerNode

/-! ## Sandboxes -/

/-- `proto.ServiceInfo` -/
structure ServiceInfo where
  name : String
  image : String
  guestPort : ℤ
  deriving DecidableEq, Repr

/-- `ContainerdMetadata`, with the PID that the task knows, and `FirecrackerMetadata`, with what the
control structure of the VM has: its network and the PID of its process. -/
inductive RuntimeMetadata
  | containerd (pid : ℕ)
  | firecracker (network pid : ℕ)
  deriving DecidableEq, Repr

def RuntimeMetadata.pid : RuntimeMetadata → ℕ
  | .containerd pid => pid
  | .firecracker _ pid => pid

def RuntimeMetadata.isContainerd : RuntimeMetadata → Bool
  | .containerd _ => true
  | .firecracker _ _ => false

/-- `managers.Metadata` -/
structure Metadata where
  serviceName : String
  runtime : RuntimeMetadata
  hostPort : ℕ
  ip : String
  guestPort : ℤ
  deriving DecidableEq, Repr

/-- `proto.Endpoint` -/
structure Endpoint where
  sandboxID : ℕ
  url : String
  nodeName : String
  serviceName : String
  hostPort : ℕ
  deriving DecidableEq, Repr

/-! ## Processes -/

inductive ProcessState
  | running
  | exited (status : UInt32)
  deriving DecidableEq, Repr

/-- The process of a sandbox, and the network that a VM was started with. -/
structure Process where
  pid : ℕ
  network : Option ℕ
  state : ProcessState
  deriving DecidableEq, Repr

/-- The event of the kernel: the raw exit status of a process. -/
structure ExitEvent where
  pid : ℕ
  status : UInt32
  deriving DecidableEq, Repr

/-- `extractExitCode` -/
def extractExitCode (e : ExitEvent) : UInt32 := e.status + 128

/-- The constant `SIGKILL`: the exit code of a killed process. -/
def sigkill : UInt32 := 137

/-- An `ExitStatusChannel`, which has no buffer and one receiver. -/
inductive Channel
  | unused
  /-- The receiver waits. -/
  | waiting
  /-- The receiver has its value. -/
  | received (exitCode : UInt32)
  deriving DecidableEq, Repr

/-! ## What the goroutines share -/

structure Node where
  nodeName : String
  useSnapshots : Bool
  /-- The exposed IP of each network. -/
  exposedIP : ℕ → String
  /-- How many names have been drawn. -/
  created : ℕ := 0
  /-- The map of the sandbox manager. -/
  sandboxes : AList fun _ : ℕ => Metadata := ∅
  portsInUse : Finset ℕ := ∅
  /-- The process monitor: the channel for each PID. -/
  notifyChannels : ℕ → Option ℕ := fun _ => none
  monitor : RWMutex := {}
  channels : ℕ → Channel := fun _ => .unused
  /-- The sandboxes that `ReportFailure` has been called for. -/
  reports : List ℕ := []
  processes : AList fun _ : ℕ => Process := ∅
  /-- The exit events that have not been read. -/
  events : List ExitEvent := []
  images : List String := []
  containers : Finset ℕ := ∅
  tasks : Finset ℕ := ∅
  /-- The allocations of the CNI. -/
  cni : Finset ℕ := ∅
  snapshots : List String := []
  network : NetworkPool

namespace Node

/-- `ListEndpoints` -/
def listEndpoints (s : Node) : List Endpoint := s.sandboxes.entries.map fun e =>
  { sandboxID := e.1, url := e.2.ip, nodeName := s.nodeName, serviceName := e.2.serviceName,
    hostPort := e.2.hostPort }

/-- No process of a sandbox that runs has this PID. -/
def pidFree (s : Node) (pid : ℕ) : Bool :=
  s.processes.entries.all fun e => e.2.state ≠ .running ∨ e.2.pid ≠ pid

def isRunning (s : Node) (id : ℕ) : Bool :=
  (s.processes.lookup id).any fun p => p.state = .running

def startProcess (s : Node) (id pid : ℕ) (network : Option ℕ) : Node :=
  { s with processes := s.processes.insert id ⟨pid, network, .running⟩ }

/-- The process of a sandbox exits, if it runs. -/
def terminate (s : Node) (id : ℕ) (status : UInt32) : Node :=
  match s.processes.lookup id with
  | some ⟨pid, network, .running⟩ =>
    { s with processes := s.processes.insert id ⟨pid, network, .exited status⟩
             events := s.events ++ [⟨pid, status⟩] }
  | _ => s

/-- The statement of `AddChannel`. -/
def setChannel (s : Node) (pid id : ℕ) : Node :=
  { s with notifyChannels := Function.update s.notifyChannels pid (some id) }

def giveUpNetwork (s : Node) (network : ℕ) : Node :=
  { s with network := (s.network.giveUpNetwork network).1 }

end Node

/-! ## Where the goroutines are -/

inductive DeleteFailure
  | cniRemoval
  | kill
  | taskDeletion
  | containerDeletion
  deriving DecidableEq, Repr

/-- What `DeleteSandbox` returns. -/
inductive Deleted
  | notFound
  | failed (f : DeleteFailure)
  | succeeded
  deriving DecidableEq, Repr

inductive Delete
  /-- The two statements of `SandboxManager.DeleteSandbox`. -/
  | get
  | remove (m : Metadata)
  | unassignPort (m : Metadata)
  | removeCNI
  | kill
  | deleteTask
  | deleteContainer
  | stopVM (network : ℕ)
  | giveUpNetwork (network : ℕ)
  | returned (d : Deleted)
  deriving DecidableEq, Repr

/-- Why `StartFirecrackerVM` has failed, after it has got a network. -/
inductive VMFailure
  | machineCreation
  | start
  | resume
  deriving DecidableEq, Repr

/-- Why `CreateSandbox` has failed. -/
inductive CreateFailure
  | imageFetch
  | containerCreation
  | taskCreation
  | wait
  | cniSetup
  | taskStart
  | noNetwork
  | vm (f : VMFailure)
  | pid
  /-- The sandbox is not ready, and has been deleted. -/
  | notReady (d : Deleted)
  deriving DecidableEq, Repr

inductive AddChannel
  | lock
  | set
  | unlock
  deriving DecidableEq, Repr

inductive Create
  | getImage
  | createContainer
  | newTask
  | wait
  | cniSetup
  | taskStart (ip : String)
  | findSnapshot
  | getOneConfig (snapshot : Bool)
  | newMachine (snapshot : Bool) (network : ℕ)
  | startVM (snapshot : Bool) (network : ℕ)
  | resumeVM (network pid : ℕ)
  /-- `StartFirecrackerVM` gives up its network. -/
  | giveUpNetwork (network : ℕ) (f : VMFailure)
  | assignPort (r : RuntimeMetadata) (ip : String)
  | vmPID (network pid : ℕ) (ip : String) (port : ℕ)
  /-- The VM has no PID. -/
  | releaseNetwork (network port : ℕ)
  | releasePort (port : ℕ)
  | addChannel (m : Metadata) (pc : AddChannel)
  | addSandbox (m : Metadata)
  /-- `go WatchExitChannel(..)` -/
  | watch (m : Metadata)
  | probe
  | createSnapshot
  /-- `ResumeVM` after the snapshot. -/
  | resumeSnapshotted
  | delete (pc : Delete)
  | failed (f : CreateFailure)
  | succeeded
  deriving DecidableEq, Repr

/-- `internalEventHandler` -/
inductive Handler
  | read
  | rlock (batch : List ExitEvent)
  | loop (batch : List ExitEvent)
  | send (channel : ℕ) (exitCode : UInt32) (batch : List ExitEvent)
  | exited
  deriving DecidableEq, Repr

/-- `WatchExitChannel` -/
inductive Watch
  | receive
  | waiting
  | received (exitCode : UInt32)
  | returned
  deriving DecidableEq, Repr

inductive Runtime
  | containerd
  | firecracker
  deriving DecidableEq, Repr

inductive Thread
  | createSandbox (r : Runtime) (info : ServiceInfo)
  /-- `CreateSandbox` with the name that it has drawn. -/
  | create (id : ℕ) (info : ServiceInfo) (pc : Create)
  | delete (id : ℕ) (pc : Delete)
  | watch (id : ℕ) (pc : Watch)
  | eventHandler (pc : Handler)
  | populate
  /-- The process of a sandbox exits on its own. -/
  | exit (id : ℕ) (status : UInt32)
  /-- A process exits that is not the process of a sandbox. -/
  | foreignExit (pid : ℕ) (status : UInt32)
  | done
  deriving DecidableEq, Repr

/-- What the outside does. -/
inductive Choice
  | ok
  | fails
  | ip (ip : String)
  | pid (pid : ℕ)
  /-- The start of a VM fails, and leaves the process that it has started. -/
  | failsRunning (pid : ℕ)
  | port (port : ℕ)
  /-- `ReadPCN` returns so many events. -/
  | batch (n : ℕ)
  deriving DecidableEq, Repr

/-- A call that succeeds or fails. -/
def Choice.call {α : Type} (c : Choice) (ok fails : α) : Option α :=
  match c with
  | .ok => some ok
  | .fails => some fails
  | _ => none

/-! ## The statements -/

/-- `DeleteSandbox` of both runtimes. -/
def deleteStep (s : Node) (id : ℕ) (c : Choice) : Delete → Option (Node × Delete)
  | .get =>
    match s.sandboxes.lookup id with
    | none => some (s, .returned .notFound)
    | some m => some (s, .remove m)
  | .remove m => some ({ s with sandboxes := s.sandboxes.erase id }, .unassignPort m)
  | .unassignPort m =>
    some ({ s with portsInUse := s.portsInUse.erase m.hostPort },
      match m.runtime with
      | .containerd _ => .removeCNI
      | .firecracker network _ => .stopVM network)
  | .removeCNI =>
    c.call ({ s with cni := s.cni.erase id }, .kill) (s, .returned (.failed .cniRemoval))
  | .kill => c.call (s.terminate id 9, .deleteTask) (s, .returned (.failed .kill))
  | .deleteTask =>
    c.call ({ s with tasks := s.tasks.erase id }, .deleteContainer)
      (s, .returned (.failed .taskDeletion))
  | .deleteContainer =>
    c.call ({ s with containers := s.containers.erase id }, .returned .succeeded)
      (s, .returned (.failed .containerDeletion))
  | .stopVM network => c.call (s.terminate id 9, .giveUpNetwork network) (s, .giveUpNetwork network)
  | .giveUpNetwork network => some (s.giveUpNetwork network, .returned .succeeded)
  | .returned _ => none

/-- `CreateSandbox` of both runtimes. Where they have the same statement, the metadata says what
comes next: containerd adds the channel before the sandbox, Firecracker after it. -/
def createStep (s : Node) (i id : ℕ) (info : ServiceInfo) (c : Choice) :
    Create → Option (Node × Create × List Thread)
  | .getImage =>
    if info.image ∈ s.images then some (s, .createContainer, [])
    else c.call ({ s with images := info.image :: s.images }, .createContainer, [])
      (s, .failed .imageFetch, [])
  | .createContainer =>
    c.call ({ s with containers := insert id s.containers }, .newTask, [])
      (s, .failed .containerCreation, [])
  | .newTask =>
    c.call ({ s with tasks := insert id s.tasks }, .wait, []) (s, .failed .taskCreation, [])
  | .wait => c.call (s, .cniSetup, []) (s, .failed .wait, [])
  | .cniSetup =>
    match c with
    | .ip ip => some ({ s with cni := insert id s.cni }, .taskStart ip, [])
    | .fails => some (s, .failed .cniSetup, [])
    | _ => none
  | .taskStart ip =>
    match c with
    | .pid pid =>
      if s.pidFree pid then some (s.startProcess id pid none, .assignPort (.containerd pid) ip, [])
        else none
    | .fails => some (s, .failed .taskStart, [])
    | _ => none
  | .findSnapshot => some (s, .getOneConfig (info.image ∈ s.snapshots), [])
  | .getOneConfig snapshot =>
    let (np, a, repopulate) := s.network.getOneConfig (c ≠ .fails)
    some ({ s with network := np },
      match a.config with
      | none => .failed .noNetwork
      | some network => .newMachine snapshot network,
      if repopulate then [.populate] else [])
  | .newMachine snapshot network =>
    c.call (s, .startVM snapshot network, []) (s, .giveUpNetwork network .machineCreation, [])
  | .startVM snapshot network =>
    match c with
    | .pid pid =>
      if s.pidFree pid then
        some (s.startProcess id pid (some network),
          if snapshot then .resumeVM network pid
          else .assignPort (.firecracker network pid) (s.exposedIP network), [])
      else none
    | .failsRunning pid =>
      if s.pidFree pid then
        some (s.startProcess id pid (some network), .giveUpNetwork network .start, [])
      else none
    | .fails => some (s, .giveUpNetwork network .start, [])
    | _ => none
  | .resumeVM network pid =>
    c.call (s, .assignPort (.firecracker network pid) (s.exposedIP network), [])
      (s, .giveUpNetwork network .resume, [])
  | .giveUpNetwork network f => some (s.giveUpNetwork network, .failed (.vm f), [])
  | .assignPort r ip =>
    match c with
    | .port port =>
      if 1024 ≤ port ∧ port < 65024 ∧ port ∉ s.portsInUse then
        some ({ s with portsInUse := insert port s.portsInUse },
          match r with
          | .containerd _ => .addChannel ⟨info.name, r, port, ip, info.guestPort⟩ .lock
          | .firecracker network pid => .vmPID network pid ip port, [])
      else none
    | _ => none
  | .vmPID network pid ip port =>
    c.call (s, .addSandbox ⟨info.name, .firecracker network pid, port, ip, info.guestPort⟩, [])
      (s, .releaseNetwork network port, [])
  | .releaseNetwork network port => some (s.giveUpNetwork network, .releasePort port, [])
  | .releasePort port => some ({ s with portsInUse := s.portsInUse.erase port }, .failed .pid, [])
  | .addChannel m .lock => (s.monitor.lock i).map ({ s with monitor := · }, .addChannel m .set, [])
  | .addChannel m .set => some (s.setChannel m.runtime.pid id, .addChannel m .unlock, [])
  | .addChannel m .unlock =>
    some ({ s with monitor := s.monitor.unlock },
      if m.runtime.isContainerd then .addSandbox m else .watch m, [])
  | .addSandbox m =>
    some ({ s with sandboxes := s.sandboxes.insert id m },
      if m.runtime.isContainerd then .watch m else .addChannel m .lock, [])
  | .watch m =>
    some (s, if m.runtime.isContainerd then .succeeded else .probe, [.watch id .receive])
  | .probe =>
    c.call (s, if s.useSnapshots ∧ info.image ∉ s.snapshots then .createSnapshot
      else .succeeded, [])
      (s, .delete .get, [])
  | .createSnapshot =>
    c.call ({ s with snapshots := info.image :: s.snapshots }, .resumeSnapshotted, [])
      (s, .resumeSnapshotted, [])
  | .resumeSnapshotted => c.call (s, .succeeded, []) (s, .delete .get, [])
  | .delete (.returned d) => some (s, .failed (.notReady d), [])
  | .delete pc => (deleteStep s id c pc).map fun r => (r.1, .delete r.2, [])
  | .failed _ => none
  | .succeeded => none

def handlerStep (s : Node) (i : ℕ) (c : Choice) : Handler → Option (Node × Handler)
  | .read =>
    match c with
    | .batch n =>
      if 0 < n ∧ n ≤ s.events.length then
        some ({ s with events := s.events.drop n }, .rlock (s.events.take n)) else none
    | .fails => some (s, .exited)
    | _ => none
  | .rlock batch => (s.monitor.rlock i).map ({ s with monitor := · }, .loop batch)
  | .loop [] => some ({ s with monitor := s.monitor.runlock i }, .read)
  | .loop (e :: batch) =>
    match s.notifyChannels e.pid with
    | none => some (s, .loop batch)
    | some channel => some (s, .send channel (extractExitCode e) batch)
  | .send channel exitCode batch =>
    if s.channels channel = .waiting then
      some ({ s with channels := Function.update s.channels channel (.received exitCode) },
        .loop batch)
    else none
  | .exited => none

def watchStep (s : Node) (id : ℕ) : Watch → Option (Node × Watch)
  | .receive => some ({ s with channels := Function.update s.channels id .waiting }, .waiting)
  | .waiting =>
    match s.channels id with
    | .received exitCode => some (s, .received exitCode)
    | _ => none
  | .received exitCode =>
    if exitCode = sigkill then some (s, .returned)
    else some ({ s with reports := s.reports ++ [id] }, .returned)
  | .returned => none

/-- The error that `DeleteSandbox` returns when this call fails. -/
def Delete.failure : Delete → Option DeleteFailure
  | .removeCNI => some .cniRemoval
  | .kill => some .kill
  | .deleteTask => some .taskDeletion
  | .deleteContainer => some .containerDeletion
  | _ => none

/-- What a statement of `DeleteSandbox` can be. -/
inductive Deletes (s : Node) (id : ℕ) (c : Choice) : Delete → Node → Delete → Prop
  | notFound : s.sandboxes.lookup id = none → Deletes s id c .get s (.returned .notFound)
  | find (m : Metadata) : s.sandboxes.lookup id = some m → Deletes s id c .get s (.remove m)
  | remove (m : Metadata) :
      Deletes s id c (.remove m) { s with sandboxes := s.sandboxes.erase id } (.unassignPort m)
  | unassignContainerd (m : Metadata) (pid : ℕ) : m.runtime = .containerd pid →
      Deletes s id c (.unassignPort m) { s with portsInUse := s.portsInUse.erase m.hostPort }
        .removeCNI
  | unassignFirecracker (m : Metadata) (network pid : ℕ) : m.runtime = .firecracker network pid →
      Deletes s id c (.unassignPort m) { s with portsInUse := s.portsInUse.erase m.hostPort }
        (.stopVM network)
  | removeCNI : c = .ok → Deletes s id c .removeCNI { s with cni := s.cni.erase id } .kill
  | kill : c = .ok → Deletes s id c .kill (s.terminate id 9) .deleteTask
  | deleteTask : c = .ok → Deletes s id c .deleteTask { s with tasks := s.tasks.erase id }
      .deleteContainer
  | deleteContainer : c = .ok →
      Deletes s id c .deleteContainer { s with containers := s.containers.erase id }
        (.returned .succeeded)
  | fails (pc : Delete) (f : DeleteFailure) : pc.failure = some f → c = .fails →
      Deletes s id c pc s (.returned (.failed f))
  | stopVM (network : ℕ) : c = .ok →
      Deletes s id c (.stopVM network) (s.terminate id 9) (.giveUpNetwork network)
  | stopVMFails (network : ℕ) : c = .fails → Deletes s id c (.stopVM network) s
      (.giveUpNetwork network)
  | giveUpNetwork (network : ℕ) :
      Deletes s id c (.giveUpNetwork network) (s.giveUpNetwork network) (.returned .succeeded)

variable {c : Choice} {s s' : Node} {id i : ℕ} {info : ServiceInfo}

theorem Choice.call_cases {α : Type} {a b r : α} (h : c.call a b = some r) :
    c = .ok ∧ r = a ∨ c = .fails ∧ r = b := by
  cases c with
  | ok => exact .inl ⟨rfl, (Option.some.inj h).symm⟩
  | fails => exact .inr ⟨rfl, (Option.some.inj h).symm⟩
  | _ => cases h

theorem deleteStep_cases {pc pc' : Delete} (h : deleteStep s id c pc = some (s', pc')) :
    Deletes s id c pc s' pc' := by
  cases pc with
  | get =>
    simp only [deleteStep] at h
    split at h
    next hnone =>
      cases h
      exact .notFound hnone
    next m hm =>
      cases h
      exact .find m hm
  | remove m =>
    cases h
    exact .remove m
  | unassignPort m =>
    simp only [deleteStep, Option.some.injEq, Prod.mk.injEq] at h
    obtain ⟨rfl, rfl⟩ := h
    split
    next pid hr => exact .unassignContainerd m pid hr
    next network pid hr => exact .unassignFirecracker m network pid hr
  | removeCNI =>
    rcases Choice.call_cases h with ⟨hc, heq⟩ | ⟨hc, heq⟩ <;> cases heq
    · exact .removeCNI hc
    · exact .fails _ _ rfl hc
  | kill =>
    rcases Choice.call_cases h with ⟨hc, heq⟩ | ⟨hc, heq⟩ <;> cases heq
    · exact .kill hc
    · exact .fails _ _ rfl hc
  | deleteTask =>
    rcases Choice.call_cases h with ⟨hc, heq⟩ | ⟨hc, heq⟩ <;> cases heq
    · exact .deleteTask hc
    · exact .fails _ _ rfl hc
  | deleteContainer =>
    rcases Choice.call_cases h with ⟨hc, heq⟩ | ⟨hc, heq⟩ <;> cases heq
    · exact .deleteContainer hc
    · exact .fails _ _ rfl hc
  | stopVM network =>
    rcases Choice.call_cases h with ⟨hc, heq⟩ | ⟨hc, heq⟩ <;> cases heq
    · exact .stopVM network hc
    · exact .stopVMFails network hc
  | giveUpNetwork network =>
    cases h
    exact .giveUpNetwork network
  | returned d => cases h

/-- The error that `CreateSandbox` returns at once when this call fails. -/
def Create.failure : Create → Option CreateFailure
  | .getImage => some .imageFetch
  | .createContainer => some .containerCreation
  | .newTask => some .taskCreation
  | .wait => some .wait
  | .cniSetup => some .cniSetup
  | .taskStart _ => some .taskStart
  | _ => none

/-- What a statement of `CreateSandbox` can be. -/
inductive Creates (s : Node) (i id : ℕ) (info : ServiceInfo) (c : Choice) :
    Create → Node → Create → List Thread → Prop
  | hasImage : info.image ∈ s.images → Creates s i id info c .getImage s .createContainer []
  | getImage : Creates s i id info c .getImage { s with images := info.image :: s.images }
      .createContainer []
  | createContainer : Creates s i id info c .createContainer
      { s with containers := insert id s.containers }
      .newTask []
  | newTask : Creates s i id info c .newTask { s with tasks := insert id s.tasks } .wait []
  | wait : Creates s i id info c .wait s .cniSetup []
  | cniSetup (ip : String) :
      Creates s i id info c .cniSetup { s with cni := insert id s.cni } (.taskStart ip) []
  | taskStart (ip : String) (pid : ℕ) : s.pidFree pid →
      Creates s i id info c (.taskStart ip) (s.startProcess id pid none)
        (.assignPort (.containerd pid) ip) []
  | fails (pc : Create) (f : CreateFailure) : pc.failure = some f → c = .fails →
      Creates s i id info c pc s (.failed f) []
  | findSnapshot :
      Creates s i id info c .findSnapshot s (.getOneConfig (info.image ∈ s.snapshots)) []
  | noNetwork (snapshot : Bool) {new : List Thread} : (∀ u ∈ new, u = .populate) →
      (s.network.getOneConfig (c ≠ .fails)).2.1.config = none →
      Creates s i id info c (.getOneConfig snapshot)
        { s with network := (s.network.getOneConfig (c ≠ .fails)).1 } (.failed .noNetwork) new
  | getOneConfig (snapshot : Bool) (network : ℕ) {new : List Thread} : (∀ u ∈ new, u = .populate) →
      (s.network.getOneConfig (c ≠ .fails)).2.1.config = some network →
      Creates s i id info c (.getOneConfig snapshot)
        { s with network := (s.network.getOneConfig (c ≠ .fails)).1 }
          (.newMachine snapshot network) new
  | newMachine (snapshot : Bool) (network : ℕ) :
      Creates s i id info c (.newMachine snapshot network) s (.startVM snapshot network) []
  | newMachineFails (snapshot : Bool) (network : ℕ) :
      Creates s i id info c (.newMachine snapshot network) s
        (.giveUpNetwork network .machineCreation) []
  | startVM (network pid : ℕ) : s.pidFree pid →
      Creates s i id info c (.startVM false network) (s.startProcess id pid (some network))
        (.assignPort (.firecracker network pid) (s.exposedIP network)) []
  | startSnapshot (network pid : ℕ) : s.pidFree pid →
      Creates s i id info c (.startVM true network) (s.startProcess id pid (some network))
        (.resumeVM network pid) []
  | startVMLeaves (snapshot : Bool) (network pid : ℕ) : c = .failsRunning pid → s.pidFree pid →
      Creates s i id info c (.startVM snapshot network) (s.startProcess id pid (some network))
        (.giveUpNetwork network .start) []
  | startVMFails (snapshot : Bool) (network : ℕ) :
      Creates s i id info c (.startVM snapshot network) s (.giveUpNetwork network .start) []
  | resumeVM (network pid : ℕ) : Creates s i id info c (.resumeVM network pid) s
      (.assignPort (.firecracker network pid) (s.exposedIP network)) []
  | resumeVMFails (network pid : ℕ) : c = .fails →
      Creates s i id info c (.resumeVM network pid) s (.giveUpNetwork network .resume) []
  | giveUpNetwork (network : ℕ) (f : VMFailure) :
      Creates s i id info c (.giveUpNetwork network f) (s.giveUpNetwork network)
        (.failed (.vm f)) []
  | assignContainerd (pid port : ℕ) (ip : String) : 1024 ≤ port → port < 65024 →
      port ∉ s.portsInUse →
      Creates s i id info c (.assignPort (.containerd pid) ip)
        { s with portsInUse := insert port s.portsInUse }
        (.addChannel ⟨info.name, .containerd pid, port, ip, info.guestPort⟩ .lock) []
  | assignFirecracker (network pid port : ℕ) (ip : String) : 1024 ≤ port → port < 65024 →
      port ∉ s.portsInUse →
      Creates s i id info c (.assignPort (.firecracker network pid) ip)
        { s with portsInUse := insert port s.portsInUse } (.vmPID network pid ip port) []
  | vmPID (network pid : ℕ) (ip : String) (port : ℕ) :
      Creates s i id info c (.vmPID network pid ip port) s
        (.addSandbox ⟨info.name, .firecracker network pid, port, ip, info.guestPort⟩) []
  | vmPIDFails (network pid : ℕ) (ip : String) (port : ℕ) : c = .fails →
      Creates s i id info c (.vmPID network pid ip port) s (.releaseNetwork network port) []
  | releaseNetwork (network port : ℕ) :
      Creates s i id info c (.releaseNetwork network port) (s.giveUpNetwork network)
        (.releasePort port) []
  | releasePort (port : ℕ) : Creates s i id info c (.releasePort port)
      { s with portsInUse := s.portsInUse.erase port } (.failed .pid) []
  | lock (m : Metadata) {m' : RWMutex} : s.monitor.lock i = some m' →
      Creates s i id info c (.addChannel m .lock) { s with monitor := m' } (.addChannel m .set) []
  | set (m : Metadata) : Creates s i id info c (.addChannel m .set) (s.setChannel m.runtime.pid id)
      (.addChannel m .unlock) []
  | unlockContainerd (m : Metadata) : m.runtime.isContainerd →
      Creates s i id info c (.addChannel m .unlock) { s with monitor := s.monitor.unlock }
        (.addSandbox m) []
  | unlockFirecracker (m : Metadata) : m.runtime.isContainerd = false →
      Creates s i id info c (.addChannel m .unlock)
        { s with monitor := s.monitor.unlock } (.watch m) []
  | addContainerd (m : Metadata) : m.runtime.isContainerd →
      Creates s i id info c (.addSandbox m) { s with sandboxes := s.sandboxes.insert id m }
        (.watch m) []
  | addFirecracker (m : Metadata) : m.runtime.isContainerd = false →
      Creates s i id info c (.addSandbox m) { s with sandboxes := s.sandboxes.insert id m }
        (.addChannel m .lock) []
  | watchContainerd (m : Metadata) : m.runtime.isContainerd →
      Creates s i id info c (.watch m) s .succeeded [.watch id .receive]
  | watchFirecracker (m : Metadata) : m.runtime.isContainerd = false →
      Creates s i id info c (.watch m) s .probe [.watch id .receive]
  | ready : Creates s i id info c .probe s .succeeded []
  | readySnapshot : Creates s i id info c .probe s .createSnapshot []
  | notReady : Creates s i id info c .probe s (.delete .get) []
  | createSnapshot : Creates s i id info c .createSnapshot
      { s with snapshots := info.image :: s.snapshots }
      .resumeSnapshotted []
  | createSnapshotFails : Creates s i id info c .createSnapshot s .resumeSnapshotted []
  | resumeSnapshotted : Creates s i id info c .resumeSnapshotted s .succeeded []
  | notResumed : Creates s i id info c .resumeSnapshotted s (.delete .get) []
  | delete {pc pc' : Delete} {s' : Node} : Deletes s id c pc s' pc' →
      Creates s i id info c (.delete pc) s' (.delete pc') []
  | deleted (d : Deleted) : Creates s i id info c (.delete (.returned d)) s
      (.failed (.notReady d)) []

/-- `DeleteSandbox` is called by a `CreateSandbox` that has added its sandbox. -/
theorem createStep_delete {pc : Delete} {r : Node × Create × List Thread}
    (h : createStep s i id info c (.delete pc) = some r) :
    (∃ d, pc = .returned d ∧ r = (s, .failed (.notReady d), [])) ∨
      ∃ s' pc', deleteStep s id c pc = some (s', pc') ∧ r = (s', .delete pc', []) := by
  cases pc with
  | returned d =>
    cases h
    exact .inl ⟨d, rfl, rfl⟩
  | _ =>
    rw [createStep, Option.map_eq_some_iff] at h
    · obtain ⟨⟨s', pc'⟩, hstep, rfl⟩ := h
      exact .inr ⟨s', pc', hstep, rfl⟩
    · exact nofun

theorem createStep_cases {pc pc' : Create} {new : List Thread}
    (h : createStep s i id info c pc = some (s', pc', new)) :
    Creates s i id info c pc s' pc' new := by
  cases pc with
  | getImage =>
    simp only [createStep] at h
    split at h
    next hmem =>
      cases h
      exact .hasImage hmem
    next =>
      rcases Choice.call_cases h with ⟨-, heq⟩ | ⟨hc, heq⟩ <;> cases heq
      · exact .getImage
      · exact .fails _ _ rfl hc
  | createContainer =>
    rcases Choice.call_cases h with ⟨-, heq⟩ | ⟨hc, heq⟩ <;> cases heq
    · exact .createContainer
    · exact .fails _ _ rfl hc
  | newTask =>
    rcases Choice.call_cases h with ⟨-, heq⟩ | ⟨hc, heq⟩ <;> cases heq
    · exact .newTask
    · exact .fails _ _ rfl hc
  | wait =>
    rcases Choice.call_cases h with ⟨-, heq⟩ | ⟨hc, heq⟩ <;> cases heq
    · exact .wait
    · exact .fails _ _ rfl hc
  | cniSetup =>
    simp only [createStep] at h
    split at h <;> cases h
    · exact .cniSetup _
    · exact .fails _ _ rfl rfl
  | taskStart ip =>
    simp only [createStep] at h
    split at h
    · split at h
      next hfree =>
        cases h
        exact .taskStart ip _ hfree
      next => cases h
    · cases h
      exact .fails _ _ rfl rfl
    · cases h
  | findSnapshot =>
    cases h
    exact .findSnapshot
  | getOneConfig snapshot =>
    simp only [createStep, Option.some.injEq, Prod.mk.injEq] at h
    obtain ⟨rfl, rfl, rfl⟩ := h
    have hnew : ∀ u ∈ (if (s.network.getOneConfig (c ≠ .fails)).2.2 then [Thread.populate] else []),
        u = .populate := by
      intro u hu
      split at hu
      · exact List.mem_singleton.1 hu
      · cases hu
    cases hconfig : (s.network.getOneConfig (c ≠ .fails)).2.1.config with
    | none => exact .noNetwork snapshot hnew hconfig
    | some network => exact .getOneConfig snapshot network hnew hconfig
  | newMachine snapshot network =>
    rcases Choice.call_cases h with ⟨-, heq⟩ | ⟨-, heq⟩ <;> cases heq
    · exact .newMachine snapshot network
    · exact .newMachineFails snapshot network
  | startVM snapshot network =>
    simp only [createStep] at h
    split at h
    · split at h
      next hfree =>
        cases h
        cases snapshot with
        | false => exact .startVM network _ hfree
        | true => exact .startSnapshot network _ hfree
      next => cases h
    · split at h
      next hfree =>
        cases h
        exact .startVMLeaves snapshot network _ rfl hfree
      next => cases h
    · cases h
      exact .startVMFails snapshot network
    · cases h
  | resumeVM network pid =>
    rcases Choice.call_cases h with ⟨-, heq⟩ | ⟨hc, heq⟩ <;> cases heq
    · exact .resumeVM network pid
    · exact .resumeVMFails network pid hc
  | giveUpNetwork network f =>
    cases h
    exact .giveUpNetwork network f
  | assignPort r ip =>
    simp only [createStep] at h
    split at h
    · split at h
      next hport =>
        cases h
        cases r with
        | containerd pid => exact .assignContainerd pid _ ip hport.1 hport.2.1 hport.2.2
        | firecracker network pid =>
          exact .assignFirecracker network pid _ ip hport.1 hport.2.1 hport.2.2
      next => cases h
    · cases h
  | vmPID network pid ip port =>
    rcases Choice.call_cases h with ⟨-, heq⟩ | ⟨hc, heq⟩ <;> cases heq
    · exact .vmPID network pid ip port
    · exact .vmPIDFails network pid ip port hc
  | releaseNetwork network port =>
    cases h
    exact .releaseNetwork network port
  | releasePort port =>
    cases h
    exact .releasePort port
  | addChannel m pc =>
    cases pc with
    | lock =>
      simp only [createStep, Option.map_eq_some_iff, Prod.mk.injEq] at h
      obtain ⟨m', hlock, rfl, rfl, rfl⟩ := h
      exact .lock m hlock
    | set =>
      cases h
      exact .set m
    | unlock =>
      cases h
      cases hr : m.runtime.isContainerd with
      | true => exact .unlockContainerd m hr
      | false => exact .unlockFirecracker m hr
  | addSandbox m =>
    cases h
    cases hr : m.runtime.isContainerd with
    | true => exact .addContainerd m hr
    | false => exact .addFirecracker m hr
  | watch m =>
    cases h
    cases hr : m.runtime.isContainerd with
    | true => exact .watchContainerd m hr
    | false => exact .watchFirecracker m hr
  | probe =>
    rcases Choice.call_cases h with ⟨-, heq⟩ | ⟨-, heq⟩ <;> cases heq
    · split
      · exact .readySnapshot
      · exact .ready
    · exact .notReady
  | createSnapshot =>
    rcases Choice.call_cases h with ⟨-, heq⟩ | ⟨-, heq⟩ <;> cases heq
    · exact .createSnapshot
    · exact .createSnapshotFails
  | resumeSnapshotted =>
    rcases Choice.call_cases h with ⟨-, heq⟩ | ⟨-, heq⟩ <;> cases heq
    · exact .resumeSnapshotted
    · exact .notResumed
  | delete pc =>
    rcases createStep_delete h with ⟨d, rfl, heq⟩ | ⟨s₁, pc₁, hstep, heq⟩ <;> cases heq
    · exact .deleted d
    · exact .delete (deleteStep_cases hstep)
  | failed f | succeeded => cases h

/-- What a statement of the handler can be. -/
inductive Handled (s : Node) (i : ℕ) (c : Choice) : Handler → Node → Handler → Prop
  | read (n : ℕ) : 0 < n → n ≤ s.events.length →
      Handled s i c .read { s with events := s.events.drop n } (.rlock (s.events.take n))
  | readFails : c = .fails → Handled s i c .read s .exited
  | rlock {m : RWMutex} (batch : List ExitEvent) : s.monitor.rlock i = some m →
      Handled s i c (.rlock batch) { s with monitor := m } (.loop batch)
  | runlock : Handled s i c (.loop []) { s with monitor := s.monitor.runlock i } .read
  | skip (e : ExitEvent) (batch : List ExitEvent) : s.notifyChannels e.pid = none →
      Handled s i c (.loop (e :: batch)) s (.loop batch)
  | find (e : ExitEvent) (batch : List ExitEvent) (channel : ℕ) : s.notifyChannels e.pid =
      some channel →
      Handled s i c (.loop (e :: batch)) s (.send channel (extractExitCode e) batch)
  | send (channel : ℕ) (exitCode : UInt32) (batch : List ExitEvent) :
      s.channels channel = .waiting →
      Handled s i c (.send channel exitCode batch)
        { s with channels := Function.update s.channels channel (.received exitCode) } (.loop batch)

theorem handlerStep_cases {pc pc' : Handler} (h : handlerStep s i c pc = some (s', pc')) :
    Handled s i c pc s' pc' := by
  cases pc with
  | read =>
    simp only [handlerStep] at h
    split at h
    · split at h
      next hn =>
        cases h
        exact .read _ hn.1 hn.2
      next => cases h
    · cases h
      exact .readFails rfl
    · cases h
  | rlock batch =>
    simp only [handlerStep, Option.map_eq_some_iff, Prod.mk.injEq] at h
    obtain ⟨m, hm, rfl, rfl⟩ := h
    exact .rlock batch hm
  | loop batch =>
    cases batch with
    | nil =>
      cases h
      exact .runlock
    | cons e batch =>
      simp only [handlerStep] at h
      split at h
      next hnone =>
        cases h
        exact .skip e batch hnone
      next channel hsome =>
        cases h
        exact .find e batch channel hsome
  | send channel exitCode batch =>
    simp only [handlerStep, Option.ite_none_right_eq_some, Option.some.injEq, Prod.mk.injEq] at h
    obtain ⟨hwaiting, rfl, rfl⟩ := h
    exact .send channel exitCode batch hwaiting
  | exited => cases h

/-- What a statement of a receiver can be. -/
inductive Watched (s : Node) (id : ℕ) : Watch → Node → Watch → Prop
  | receive :
      Watched s id .receive { s with channels := Function.update s.channels id .waiting } .waiting
  | received (exitCode : UInt32) : s.channels id = .received exitCode →
      Watched s id .waiting s (.received exitCode)
  | killed : Watched s id (.received sigkill) s .returned
  | report (exitCode : UInt32) : exitCode ≠ sigkill →
      Watched s id (.received exitCode) { s with reports := s.reports ++ [id] } .returned

theorem watchStep_cases {pc pc' : Watch} (h : watchStep s id pc = some (s', pc')) :
    Watched s id pc s' pc' := by
  cases pc with
  | receive =>
    cases h
    exact .receive
  | waiting =>
    simp only [watchStep] at h
    split at h
    next exitCode hreceived =>
      cases h
      exact .received exitCode hreceived
    next => cases h
  | received exitCode =>
    simp only [watchStep] at h
    split at h
    next hkill =>
      cases h
      rw [hkill]
      exact .killed
    next hne =>
      cases h
      exact .report exitCode hne
  | returned => cases h

/-- The first statement of the runtime's `CreateSandbox`. -/
def Runtime.first : Runtime → Create
  | .containerd => .getImage
  | .firecracker => .findSnapshot

namespace Thread

/-- A statement of thread `i`. -/
def step (s : Node) (i : ℕ) (c : Choice) : Thread → Option (Node × Thread × List Thread)
  | .createSandbox r info =>
    some ({ s with created := s.created + 1 }, .create s.created info r.first, [])
  | .create id info pc => (createStep s i id info c pc).map fun r =>
      (r.1, .create id info r.2.1, r.2.2)
  | .delete id pc => (deleteStep s id c pc).map fun r => (r.1, .delete id r.2, [])
  | .watch id pc => (watchStep s id pc).map fun r => (r.1, .watch id r.2, [])
  | .eventHandler pc => (handlerStep s i c pc).map fun r => (r.1, .eventHandler r.2, [])
  | .populate =>
    match s.network.populate (c ≠ .fails) with
    | some np => some ({ s with network := np }, .populate, [])
    | none => some (s, .done, [])
  | .exit id status => if s.isRunning id then some (s.terminate id status, .done, []) else none
  | .foreignExit pid status =>
    if s.pidFree pid then some ({ s with events := s.events ++ [⟨pid, status⟩] },
      .done, []) else none
  | .done => none

/-- A call of `CreateSandbox` or `DeleteSandbox` that has not returned. -/
def inProgress : Thread → Bool
  | .createSandbox _ _ => true
  | .create _ _ (.failed _) | .create _ _ .succeeded => false
  | .create _ _ _ => true
  | .delete _ (.returned _) => false
  | .delete _ _ => true
  | _ => false

/-- What a step of a thread can be. -/
inductive Steps (s : Node) (i : ℕ) (c : Choice) : Thread → Node → Thread → List Thread → Prop
  | begin (r : Runtime) (info : ServiceInfo) : Steps s i c (.createSandbox r info)
      { s with created := s.created + 1 } (.create s.created info r.first) []
  | create {id : ℕ} {info : ServiceInfo} {pc pc' : Create} {s' : Node} {new : List Thread} :
      Creates s i id info c pc s' pc' new → Steps s i c (.create id info pc) s'
        (.create id info pc') new
  | delete {id : ℕ} {pc pc' : Delete} {s' : Node} : Deletes s id c pc s' pc' →
      Steps s i c (.delete id pc) s' (.delete id pc') []
  | watch {id : ℕ} {pc pc' : Watch} {s' : Node} : Watched s id pc s' pc' →
      Steps s i c (.watch id pc) s' (.watch id pc') []
  | eventHandler {pc pc' : Handler} {s' : Node} : Handled s i c pc s' pc' →
      Steps s i c (.eventHandler pc) s' (.eventHandler pc') []
  | populate {np : NetworkPool} : s.network.populate (c ≠ .fails) = some np →
      Steps s i c .populate { s with network := np } .populate []
  | populated : Steps s i c .populate s .done []
  | exit {id : ℕ} {status : UInt32} : s.isRunning id →
      Steps s i c (.exit id status) (s.terminate id status) .done []
  | foreignExit {pid : ℕ} {status : UInt32} : s.pidFree pid →
      Steps s i c (.foreignExit pid status) { s with events := s.events ++ [⟨pid, status⟩] }
        .done []

theorem step_cases {s s' : Node} {i : ℕ} {c : Choice} {t t' : Thread} {new : List Thread}
    (h : t.step s i c = some (s', t', new)) : Steps s i c t s' t' new := by
  cases t with
  | createSandbox r info =>
    cases h
    exact .begin r info
  | create id info pc =>
    simp only [step, Option.map_eq_some_iff, Prod.exists, Prod.mk.injEq] at h
    obtain ⟨s₁, pc₁, new₁, hstep, rfl, rfl, rfl⟩ := h
    exact .create (createStep_cases hstep)
  | delete id pc =>
    simp only [step, Option.map_eq_some_iff, Prod.exists, Prod.mk.injEq] at h
    obtain ⟨s₁, pc₁, hstep, rfl, rfl, rfl⟩ := h
    exact .delete (deleteStep_cases hstep)
  | watch id pc =>
    simp only [step, Option.map_eq_some_iff, Prod.exists, Prod.mk.injEq] at h
    obtain ⟨s₁, pc₁, hstep, rfl, rfl, rfl⟩ := h
    exact .watch (watchStep_cases hstep)
  | eventHandler pc =>
    simp only [step, Option.map_eq_some_iff, Prod.exists, Prod.mk.injEq] at h
    obtain ⟨s₁, pc₁, hstep, rfl, rfl, rfl⟩ := h
    exact .eventHandler (handlerStep_cases hstep)
  | populate =>
    simp only [step] at h
    split at h
    next np hnp =>
      cases h
      exact .populate hnp
    next =>
      cases h
      exact .populated
  | exit id status =>
    simp only [step, Option.ite_none_right_eq_some, Option.some.injEq, Prod.mk.injEq] at h
    obtain ⟨hrunning, rfl, rfl, rfl⟩ := h
    exact .exit hrunning
  | foreignExit pid status =>
    simp only [step, Option.ite_none_right_eq_some, Option.some.injEq, Prod.mk.injEq] at h
    obtain ⟨hfree, rfl, rfl, rfl⟩ := h
    exact .foreignExit hfree
  | done => cases h

end Thread

/-- What may happen at any time. -/
inductive Call
  | createSandbox (info : ServiceInfo)
  | deleteSandbox (id : ℕ)
  | exit (id : ℕ) (status : UInt32)
  | foreignExit (pid : ℕ) (status : UInt32)
  deriving DecidableEq, Repr

def Call.thread (r : Runtime) : Call → Thread
  | .createSandbox info => .createSandbox r info
  | .deleteSandbox id => .delete id .get
  | .exit id status => .exit id status
  | .foreignExit pid status => .foreignExit pid status

def sandboxCalls (r : Runtime) : Threads Node Thread Call Choice where
  init s := ∃ nodeName useSnapshots exposedIP networkPoolSize,
    s = { nodeName, useSnapshots, exposedIP
          network := { maxNetworkPoolSize := NetworkPool.size networkPoolSize } }
  call a := some (a.thread r)
  step s i t c := t.step s i c

/-- A worker node with one of the runtimes. It starts with the event handler of the process monitor,
and with the goroutine that fills the network pool. -/
def workerNode (r : Runtime) : Machine (Pool Node Thread) (Threads.Event Call Choice) where
  init s := (sandboxCalls r).init s.shared ∧ s.threads = [.eventHandler .read, .populate]
  next := (sandboxCalls r).machine.next

end Dirigent.WorkerNode
