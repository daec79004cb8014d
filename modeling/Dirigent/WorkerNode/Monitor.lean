import Dirigent.WorkerNode.Lifecycle

/-!
# The process monitor

`internalEventHandler` reads the exit events of the kernel and sends each exit code on the channel
that is registered for the PID, while it holds the lock of the map. A channel has no buffer, and its
receiver receives once. Nobody removes a channel from the map, so the next process with that PID
makes the handler send on a channel that nobody receives from any more, for ever.

**What the monitor sees of a thread** (`Shadow`). Of a `CreateSandbox`: how far it is with the
channel of its sandbox. Of a `DeleteSandbox`: the sandbox. The handler and the receivers are seen as
they are. `MonitorStep` says what a step can do to the monitor.

**The invariant** (`Monitored`). For each channel that is registered for a PID, the exit events of
the PID that are on their way to the handler, the handler's present send and the value that has been
received are together no more than the exits of the sandbox's process: none or one. A step that
registers a channel adds nothing, since no exit event of the PID is on its way; an exit adds one
event, and the registered channel is that of the process that exits.

* **`neverBlocks_of_run`** — then the handler never sends on a channel whose value has been
  received.
-/

namespace Dirigent.WorkerNode

open Threads

/-! ## What the monitor sees -/

/-- How far a `CreateSandbox` is with the channel. -/
inductive Phase
  /-- It has not registered the channel; also after it has failed. -/
  | before
  /-- It holds the lock, and is about to register the channel for this PID. -/
  | locked (pid : ℕ)
  | unlocking
  | registered
  /-- It has started the receiver. -/
  | watched
  /-- It has called `DeleteSandbox`. -/
  | deleting
  deriving DecidableEq, Repr

def Create.phase : Create → Phase
  | .addChannel m .set => .locked m.runtime.pid
  | .addChannel _ .unlock => .unlocking
  | .addSandbox m => if m.runtime.isContainerd then .registered else .before
  | .watch _ => .registered
  | .probe | .createSnapshot | .resumeSnapshotted | .succeeded => .watched
  | .delete _ | .failed (.notReady _) => .deleting
  | _ => .before

inductive Shadow
  | idle
  | creator (id : ℕ) (phase : Phase)
  | deleter (id : ℕ)
  | watcher (id : ℕ) (pc : Watch)
  | handler (pc : Handler)
  | exiting (id : ℕ) (status : UInt32)
  | foreign (pid : ℕ) (status : UInt32)
  deriving DecidableEq, Repr

def Thread.shadow : Thread → Shadow
  | .create id _ pc => .creator id pc.phase
  | .delete id _ => .deleter id
  | .watch id pc => .watcher id pc
  | .eventHandler pc => .handler pc
  | .exit id status => .exiting id status
  | .foreignExit pid status => .foreign pid status
  | _ => .idle

/-- The exit events that the handler has read and not looked up. -/
def Handler.batch : Handler → List ExitEvent
  | .rlock batch | .loop batch | .send _ _ batch => batch
  | _ => []

def Shadow.batch : Shadow → List ExitEvent
  | .handler pc => pc.batch
  | _ => []

/-- The exit events on their way to the handler. -/
def pending (s : Pool Node Thread) : List ExitEvent :=
  s.shared.events ++ s.threads.flatMap fun t => t.shadow.batch

/-- If the process of the sandbox runs, no other sandbox has a channel for its PID. -/
def Node.OwnsPID (s : Node) (id : ℕ) : Prop :=
  ∀ p ∈ s.processes.lookup id, p.state = .running →
    s.notifyChannels p.pid = none ∨ s.notifyChannels p.pid = some id

/-- The statements that kill the process. -/
def Delete.kills : Delete → Bool
  | .kill | .stopVM _ => true
  | _ => false

/-- Processes exit only when the channel for their PID is their own, or there is none; a channel is
registered only when no exit event of its PID is on its way. -/
def Thread.Orderly (s : Pool Node Thread) (c : Choice) : Thread → Prop
  | .exit id _ => s.shared.OwnsPID id
  | .foreignExit pid _ => s.shared.notifyChannels pid = none
  | .delete id pc | .create id _ (.delete pc) => pc.kills → c = .ok → s.shared.OwnsPID id
  | .create _ _ (.addChannel m .set) => ∀ e ∈ pending s, e.pid ≠ m.runtime.pid
  | _ => True

/-- What a node has for the monitor. -/
structure View where
  notifyChannels : ℕ → Option ℕ
  monitor : RWMutex
  channels : ℕ → Channel
  events : List ExitEvent
  reports : List ℕ

def Node.view (s : Node) : View := ⟨s.notifyChannels, s.monitor, s.channels, s.events, s.reports⟩

/-- **What an orderly step does to the monitor.** -/
inductive MonitorStep (s : Node) (pending : List ExitEvent) (i : ℕ) (c : Choice) :
    Shadow → Node → Shadow → List Shadow → Prop
  | other {v : Shadow} {s' : Node} {new : List Shadow} :
      s'.view = s.view → s'.processes = s.processes →
      s'.created = s.created → (∀ u ∈ new, u = .idle) → MonitorStep s pending i c v s' v new
  | begin : MonitorStep s pending i c .idle { s with created := s.created + 1 }
      (.creator s.created .before) []
  | start {id : ℕ} (pid : ℕ) (network : Option ℕ) :
      MonitorStep s pending i c (.creator id .before) (s.startProcess id pid network)
        (.creator id .before) []
  | lock {id : ℕ} (pid : ℕ) {m : RWMutex} : s.monitor.lock i = some m →
      MonitorStep s pending i c (.creator id .before) { s with monitor := m }
        (.creator id (.locked pid)) []
  | set {id pid : ℕ} : (∀ e ∈ pending, e.pid ≠ pid) →
      MonitorStep s pending i c (.creator id (.locked pid)) (s.setChannel pid id)
        (.creator id .unlocking) []
  | unlock {id : ℕ} : MonitorStep s pending i c (.creator id .unlocking)
      { s with monitor := s.monitor.unlock } (.creator id .registered) []
  | watch {id : ℕ} : MonitorStep s pending i c (.creator id .registered) s (.creator id .watched)
      [.watcher id .receive]
  | call {id : ℕ} : MonitorStep s pending i c (.creator id .watched) s (.creator id .deleting) []
  | kill {id : ℕ} {v : Shadow} : v = .deleter id ∨ v = .creator id .deleting → s.OwnsPID id →
      MonitorStep s pending i c v (s.terminate id 9) v []
  | exit {id : ℕ} {status : UInt32} : s.isRunning id → s.OwnsPID id →
      MonitorStep s pending i c (.exiting id status) (s.terminate id status) .idle []
  | foreignExit {pid : ℕ} {status : UInt32} : s.notifyChannels pid = none →
      MonitorStep s pending i c (.foreign pid status)
        { s with events := s.events ++ [⟨pid, status⟩] }
        .idle []
  | watching {id : ℕ} {pc pc' : Watch} {s' : Node} : Watched s id pc s' pc' →
      MonitorStep s pending i c (.watcher id pc) s' (.watcher id pc') []
  | handling {pc pc' : Handler} {s' : Node} : Handled s i c pc s' pc' →
      MonitorStep s pending i c (.handler pc) s' (.handler pc') []

section

variable {s : Node} {s' : Node} {ps : List ExitEvent} {i id : ℕ} {info : ServiceInfo} {c : Choice}
  {new : List Thread}

theorem Deletes.monitor {pc pc' : Delete} (h : Deletes s id c pc s' pc') :
    (s'.view = s.view ∧ s'.processes = s.processes ∧ s'.created = s.created) ∨
      pc.kills ∧ c = .ok ∧ s' = s.terminate id 9 := by
  cases h with
  | kill hc | stopVM network hc => exact .inr ⟨rfl, hc, rfl⟩
  | _ => exact .inl ⟨rfl, rfl, rfl⟩

theorem Creates.monitor {pc pc' : Create} (h : Creates s i id info c pc s' pc' new)
    (hset : ∀ m, pc = .addChannel m .set → ∀ e ∈ ps, e.pid ≠ m.runtime.pid)
    (hkill : ∀ pc₀, pc = .delete pc₀ → pc₀.kills → c = .ok → s.OwnsPID id) :
    MonitorStep s ps i c (.creator id pc.phase) s' (.creator id pc'.phase)
      (new.map Thread.shadow) := by
  have hpopulate : (∀ u ∈ new, u = .populate) → ∀ v ∈ new.map Thread.shadow, v = .idle := by
    intro hnew v hv
    obtain ⟨u, hu, rfl⟩ := List.mem_map.1 hv
    rw [hnew u hu]
    rfl
  cases h with
  | fails _ f hf => cases pc <;> cases hf <;> exact .other rfl rfl rfl (List.forall_mem_nil _)
  | noNetwork snapshot hnew | getOneConfig snapshot network hnew =>
    exact .other rfl rfl rfl (hpopulate hnew)
  | taskStart | startVM | startSnapshot | startVMLeaves => exact .start _ _
  | lock m hlock => exact .lock _ hlock
  | set m => exact .set (hset m rfl)
  | unlockContainerd m hr =>
    simp only [Create.phase, hr]
    exact .unlock
  | unlockFirecracker m hr => exact .unlock
  | addContainerd m hr | addFirecracker m hr =>
    simp only [Create.phase, hr]
    exact .other rfl rfl rfl (List.forall_mem_nil _)
  | watchContainerd | watchFirecracker => exact .watch
  | notReady | notResumed => exact .call
  | @delete pc _ _ hstep =>
    rcases hstep.monitor with ⟨hview, hprocesses, hcreated⟩ | ⟨hkills, hok, rfl⟩
    · exact .other hview hprocesses hcreated (List.forall_mem_nil _)
    · exact .kill (.inr rfl) (hkill pc rfl hkills hok)
  | _ => exact .other rfl rfl rfl (List.forall_mem_nil _)

end

variable {s : Pool Node Thread} {i : ℕ} {c : Choice} {t t' : Thread} {new : List Thread}
  {vs : List Shadow} {r : Runtime}

/-- Every orderly step of a thread is a step of the monitor. -/
theorem step_monitor {s' : Node} (h : t.step s.shared i c = some (s', t', new))
    (horderly : t.Orderly s c) :
    MonitorStep s.shared (pending s) i c t.shadow s' t'.shadow (new.map Thread.shadow) := by
  cases Thread.step_cases h with
  | begin r info => cases r <;> exact .begin
  | @create id info pc pc' _ _ hstep =>
    refine hstep.monitor ?_ ?_
    · rintro m rfl
      exact horderly
    · rintro pc₀ rfl
      exact horderly
  | @delete id pc pc' _ hstep =>
    rcases hstep.monitor with ⟨hview, hprocesses, hcreated⟩ | ⟨hkills, hok, rfl⟩
    · exact .other hview hprocesses hcreated (List.forall_mem_nil _)
    · exact .kill (.inl rfl) (horderly hkills hok)
  | watch hstep => exact .watching hstep
  | eventHandler hstep => exact .handling hstep
  | populate | populated => exact .other rfl rfl rfl (List.forall_mem_nil _)
  | exit hrunning => exact .exit hrunning horderly
  | foreignExit => exact .foreignExit horderly

/-! ## The lock -/

def Shadow.mode : Shadow → RWMutex.Mode
  | .creator _ (.locked _) | .creator _ .unlocking => .writing
  | .handler (.loop _) | .handler (.send _ _ _) => .reading
  | _ => .out

section

variable {s s' : Node} {ps : List ExitEvent} {i id : ℕ} {c : Choice} {v v' : Shadow}
  {new : List Shadow}

theorem Node.terminate_cases (s : Node) (id : ℕ) (status : UInt32) :
    s.terminate id status = s ∧ s.isRunning id = false ∨
    ∃ p, s.processes.lookup id = some p ∧ p.state = .running ∧
      s.terminate id status =
        { s with processes := s.processes.insert id { p with state := .exited status }
                 events := s.events ++ [⟨p.pid, status⟩] } := by
  unfold Node.terminate Node.isRunning
  split
  next pid network hp => exact .inr ⟨_, hp, rfl, rfl⟩
  next hne =>
    refine .inl ⟨rfl, ?_⟩
    cases hp : s.processes.lookup id with
    | none => rfl
    | some p =>
      obtain ⟨pid, network, state⟩ := p
      cases state with
      | running => exact absurd hp (hne pid network)
      | exited status => rfl

theorem Node.terminate_frame (s : Node) (id : ℕ) (status : UInt32) :
    (s.terminate id status).monitor = s.monitor ∧
      (s.terminate id status).notifyChannels = s.notifyChannels ∧
      (s.terminate id status).channels = s.channels ∧
      (s.terminate id status).reports = s.reports := by
  rcases s.terminate_cases id status with ⟨h, -⟩ | ⟨p, -, -, h⟩ <;> simp [h]

theorem Handled.move {pc pc' : Handler} (h : Handled s i c pc s' pc') :
    RWMutex.Move i s.monitor (Shadow.handler pc).mode s'.monitor (Shadow.handler pc').mode := by
  cases h with
  | rlock batch hm => exact .rlock hm
  | runlock => exact .runlock
  | _ => exact .keep

theorem MonitorStep.move (h : MonitorStep s ps i c v s' v' new) :
    RWMutex.Move i s.monitor v.mode s'.monitor v'.mode ∧ ∀ u ∈ new, u.mode = .out := by
  cases h with
  | other hview _ _ hnew =>
    have hmonitor : s'.monitor = s.monitor := congrArg View.monitor hview
    rw [hmonitor]
    exact ⟨.keep, fun u hu => by rw [hnew u hu]; rfl⟩
  | lock pid hlock => exact ⟨.lock hlock, List.forall_mem_nil _⟩
  | unlock => exact ⟨.unlock, List.forall_mem_nil _⟩
  | watch => exact ⟨.keep, List.forall_mem_singleton.2 rfl⟩
  | kill | exit =>
    rw [(Node.terminate_frame ..).1]
    exact ⟨.keep, List.forall_mem_nil _⟩
  | watching hstep => cases hstep <;> exact ⟨.keep, List.forall_mem_nil _⟩
  | handling hstep => exact ⟨hstep.move, List.forall_mem_nil _⟩
  | _ => exact ⟨.keep, List.forall_mem_nil _⟩

end

/-! ## The invariant -/

namespace Shadow

def isCreator (id : ℕ) : Shadow → Bool
  | .creator id' _ => id' = id
  | _ => false

/-- The channel of the sandbox has not been registered. -/
def isFresh (id : ℕ) : Shadow → Bool
  | .creator id' .before | .creator id' (.locked _) => id' = id
  | _ => false

/-- The handler is at a send on the channel of the sandbox. -/
def sends (id : ℕ) : Shadow → Bool
  | .handler (.send id' _ _) => id' = id
  | _ => false

end Shadow

def Node.hasReceived (s : Node) (id : ℕ) : Bool :=
  match s.channels id with
  | .received _ => true
  | _ => false

def Node.hasExited (s : Node) (id : ℕ) : Bool :=
  (s.processes.lookup id).any fun p => p.state ≠ .running

/-- How many exit events of the PID are on their way. -/
def pendingCount (pid : ℕ) (s : Node) (vs : List Shadow) : ℕ :=
  s.events.countP (·.pid = pid) + (vs.map fun v => v.batch.countP (·.pid = pid)).sum

structure Monitored (s : Node) (vs : List Shadow) : Prop where
  guards : s.monitor.Guards (modeAt Shadow.mode .out vs)
  creators : ∀ id, (if s.created ≤ id then 1 else 0) + vs.countP (·.isCreator id) = 1
  fresh : ∀ id, (s.created ≤ id ∨ ∃ v ∈ vs, v.isFresh id) →
    (∀ pid, s.notifyChannels pid ≠ some id) ∧ s.hasReceived id = false
  injective : ∀ pid pid' id, s.notifyChannels pid = some id → s.notifyChannels pid' =
    some id → pid = pid'
  sending : ∀ v ∈ vs, ∀ id, v.sends id → ∃ pid, s.notifyChannels pid = some id
  once : ∀ pid id, s.notifyChannels pid = some id →
    pendingCount pid s vs + vs.countP (·.sends id) + one (s.hasReceived id) ≤ one (s.hasExited id)

section

variable {s s' : Node} {vs : List Shadow} {ps : List ExitEvent} {i id : ℕ} {c : Choice}
  {v v' : Shadow} {new : List Shadow}

@[simp] theorem Node.setChannel_self (s : Node) (pid id : ℕ) :
    (s.setChannel pid id).notifyChannels pid = some id :=
  Function.update_self _ _ _

theorem Node.setChannel_of_ne {s : Node} {pid q id : ℕ} (h : q ≠ pid) :
    (s.setChannel pid id).notifyChannels q = s.notifyChannels q :=
  Function.update_of_ne h _ _

namespace MonitorStep

variable (h : MonitorStep s ps i c v s' v' new)

include h

theorem guards (hv : vs[i]? = some v)
    (hguards : s.monitor.Guards (modeAt Shadow.mode .out vs)) :
    s'.monitor.Guards (modeAt Shadow.mode .out (advance vs i v' new)) := by
  obtain ⟨hmove, hnew⟩ := h.move
  rw [modeAt_advance Shadow.mode .out hv v' hnew]
  refine hguards.move ?_
  rwa [modeAt_of_getElem? hv]

theorem mem_new : ∀ u ∈ new, u = .idle ∨ ∃ id, u = .watcher id .receive := by
  cases h with
  | other _ _ _ hnew => exact fun u hu => .inl (hnew u hu)
  | @watch id => exact fun u hu => .inr ⟨id, List.mem_singleton.1 hu⟩
  | _ => exact List.forall_mem_nil _

theorem countP_advance (hv : vs[i]? = some v) (q : Shadow → Bool) (hidle : q .idle = false)
    (hwatcher : ∀ id, q (.watcher id .receive) = false) :
    (advance vs i v' new).countP q + one (q v) = vs.countP q + one (q v') := by
  have hnew : new.countP q = 0 := by
    rw [List.countP_eq_zero]
    intro u hu
    rcases h.mem_new u hu with rfl | ⟨id, rfl⟩
    · simp [hidle]
    · simp [hwatcher]
  have hcount := Threads.countP_advance q hv v' new
  rw [hnew] at hcount
  exact hcount

theorem pendingCount_advance (hv : vs[i]? = some v) (pid : ℕ) :
    pendingCount pid s' (advance vs i v' new) + s.events.countP (·.pid = pid)
        + v.batch.countP (·.pid = pid) =
      pendingCount pid s vs + s'.events.countP (·.pid = pid) + v'.batch.countP (·.pid = pid) := by
  have hnew : (new.map fun v => v.batch.countP (·.pid = pid)).sum = 0 := by
    refine List.sum_eq_zero (List.forall_mem_map.2 fun u hu => ?_)
    rcases h.mem_new u hu with rfl | ⟨id, rfl⟩ <;> rfl
  have hsum := sum_advance (fun v : Shadow => v.batch.countP (·.pid = pid)) hv v' new
  rw [hnew] at hsum
  unfold pendingCount
  omega

theorem created_cases :
    (s'.created = s.created ∧ ∀ id, v'.isCreator id = v.isCreator id) ∨
      s'.created = s.created + 1 ∧ v = .idle ∧ v' = .creator s.created .before := by
  cases h with
  | other _ _ hcreated _ => exact .inl ⟨hcreated, fun _ => rfl⟩
  | begin => exact .inr ⟨rfl, rfl, rfl⟩
  | @kill id _ hv => exact .inl ⟨s.terminate_created id 9, fun _ => rfl⟩
  | @exit id status => exact .inl ⟨s.terminate_created id status, fun _ => rfl⟩
  | watching hstep | handling hstep => exact .inl ⟨hstep.frame.2.1, fun _ => rfl⟩
  | _ => exact .inl ⟨rfl, fun _ => rfl⟩

theorem creators (hv : vs[i]? = some v) (id : ℕ)
    (hcreators : (if s.created ≤ id then 1 else 0) + vs.countP (·.isCreator id) = 1) :
    (if s'.created ≤ id then 1 else 0) + (advance vs i v' new).countP (·.isCreator id) = 1 := by
  have hcount := h.countP_advance hv (·.isCreator id) rfl fun _ => rfl
  rcases h.created_cases with ⟨hcreated, hsame⟩ | ⟨hcreated, rfl, rfl⟩
  · rw [hsame id] at hcount
    rw [hcreated]
    omega
  · have hidle : Shadow.idle.isCreator id = false := rfl
    have hcreator : (Shadow.creator s.created .before).isCreator id = decide (s.created = id) := rfl
    simp only [one, hidle, hcreator, Bool.false_eq_true, if_false, decide_eq_true_eq] at hcount
    rw [hcreated]
    split_ifs at hcreators hcount ⊢ <;> omega

theorem notifyChannels_cases :
    s'.notifyChannels = s.notifyChannels ∨
      ∃ id pid, (∀ e ∈ ps, e.pid ≠ pid) ∧ v = .creator id (.locked pid) ∧
      v' = .creator id .unlocking ∧
        s' = s.setChannel pid id := by
  cases h with
  | other hview => exact .inl (congrArg View.notifyChannels hview)
  | set hpending => exact .inr ⟨_, _, hpending, rfl, rfl, rfl⟩
  | kill | exit => exact .inl (s.terminate_frame ..).2.1
  | watching hstep | handling hstep => cases hstep <;> exact .inl rfl
  | _ => exact .inl rfl

theorem channel_cases {pid : ℕ} (hpid : s'.notifyChannels pid = some id) :
    s.notifyChannels pid = some id ∨ (∀ e ∈ ps, e.pid ≠ pid) ∧ v = .creator id (.locked pid) ∧
      v' = .creator id .unlocking ∧ s' = s.setChannel pid id := by
  rcases h.notifyChannels_cases with hsame | ⟨id', q, hnone, rfl, rfl, rfl⟩
  · exact .inl (hsame ▸ hpid)
  · by_cases hq : pid = q
    · rw [hq, Node.setChannel_self] at hpid
      cases hpid
      exact .inr ⟨hq ▸ hnone, hq ▸ rfl, rfl, hq ▸ rfl⟩
    · exact .inl (Node.setChannel_of_ne hq ▸ hpid)

theorem isFresh (hfresh : v'.isFresh id) : v.isFresh id ∨ s.created ≤ id := by
  cases h with
  | begin =>
    have hid : s.created = id := of_decide_eq_true hfresh
    exact .inr hid.le
  | other | start | lock | kill => exact .inl hfresh
  | _ => cases hfresh

/-- What happens to the channel of a sandbox. -/
theorem channels_cases (id : ℕ) :
    s'.channels id = s.channels id ∨
      (v = .watcher id .receive ∧ v' = .watcher id .waiting ∧ s'.channels id = .waiting) ∨
      ∃ exitCode batch, v = .handler (.send id exitCode batch) ∧ v' = .handler (.loop batch) ∧
        s.channels id = .waiting ∧ s'.channels id = .received exitCode := by
  cases h with
  | other hview => exact .inl (congrFun (congrArg View.channels hview) id)
  | kill | exit => exact .inl (congrFun (s.terminate_frame ..).2.2.1 id)
  | @watching j _ _ _ hstep =>
    cases hstep with
    | receive =>
      by_cases hj : id = j
      · subst hj
        exact .inr (.inl ⟨rfl, rfl, Function.update_self _ _ _⟩)
      · exact .inl (Function.update_of_ne hj _ _)
    | _ => exact .inl rfl
  | handling hstep =>
    cases hstep with
    | send channel exitCode batch hwaiting =>
      by_cases hj : id = channel
      · subst hj
        exact .inr (.inr ⟨exitCode, batch, rfl, rfl, hwaiting, Function.update_self _ _ _⟩)
      · exact .inl (Function.update_of_ne hj _ _)
    | _ => exact .inl rfl
  | _ => exact .inl rfl

end MonitorStep

theorem Monitored.not_created_le (h : Monitored s vs) (hv : v ∈ vs) (hvc : v.isCreator id) :
    ¬ s.created ≤ id := by
  intro hle
  have hcreators := h.creators id
  have hpos : 0 < vs.countP (·.isCreator id) := List.countP_pos_iff.2 ⟨v, hv, hvc⟩
  rw [if_pos hle] at hcreators
  omega

theorem Monitored.eq_of_mem_advance {u : Shadow} (h : Monitored s vs) (hv : vs[i]? = some v)
    (hvc : v.isCreator id) (hstep : MonitorStep s ps i c v s' v' new)
    (hu : u ∈ advance vs i v' new) (huc : u.isCreator id) : u = v' := by
  rcases mem_advance hv hu with rfl | ⟨j, hj, huj⟩ | hnew
  · rfl
  · have hle : vs.countP (·.isCreator id) ≤ 1 := by
      have hcreators := h.creators id
      omega
    have hfalse := eq_false_of_countP_le_one hle hv hvc huj hj
    rw [huc] at hfalse
    cases hfalse
  · rcases hstep.mem_new u hnew with rfl | ⟨_, rfl⟩ <;> cases huc

theorem Shadow.isCreator_of_isFresh {v : Shadow} (h : v.isFresh id) : v.isCreator id := by
  cases v with
  | creator id' phase =>
    cases phase with
    | before | locked pid => exact h
    | _ => cases h
  | _ => cases h

theorem hasReceived_congr {s s' : Node} (h : s'.channels id = s.channels id) :
    s'.hasReceived id = s.hasReceived id := by
  unfold Node.hasReceived
  rw [h]

theorem Monitored.fresh_step (h : Monitored s vs) (hv : vs[i]? = some v)
    (hstep : MonitorStep s ps i c v s' v' new) (id : ℕ)
    (hfresh : s'.created ≤ id ∨ ∃ u ∈ advance vs i v' new, u.isFresh id) :
    (∀ pid, s'.notifyChannels pid ≠ some id) ∧ s'.hasReceived id = false := by
  have hvmem : v ∈ vs := List.mem_of_getElem? hv
  -- it was fresh before, and the step has not registered its channel
  have hold : s.created ≤ id ∨ ∃ u ∈ vs, u.isFresh id := by
    rcases hfresh with hle | ⟨u, hu, hfresh⟩
    · rcases hstep.created_cases with ⟨hcreated, -⟩ | ⟨hcreated, -, -⟩ <;> exact .inl (by omega)
    · rcases mem_of_mem_advance hu with rfl | hsame | hnew
      · rcases hstep.isFresh hfresh with hfresh | hle
        · exact .inr ⟨v, hvmem, hfresh⟩
        · exact .inl hle
      · exact .inr ⟨u, hsame, hfresh⟩
      · rcases hstep.mem_new u hnew with rfl | ⟨_, rfl⟩ <;> cases hfresh
  obtain ⟨hnone, hnot⟩ := h.fresh id hold
  constructor
  · intro pid hsome
    rcases hstep.channel_cases hsome with hsome | ⟨-, rfl, rfl, rfl⟩
    · exact hnone pid hsome
    · -- the channel has just been registered, by the only creator of the sandbox
      have hcreator : (Shadow.creator id (.locked pid)).isCreator id := by simp [Shadow.isCreator]
      rcases hfresh with hle | ⟨u, hu, hfresh⟩
      · exact h.not_created_le hvmem hcreator hle
      · rw [h.eq_of_mem_advance hv hcreator hstep hu (Shadow.isCreator_of_isFresh hfresh)] at hfresh
        cases hfresh
  · rcases hstep.channels_cases id with hsame | ⟨-, -, hwaiting⟩ | ⟨_, _, rfl, -⟩
    · rw [hasReceived_congr hsame, hnot]
    · simp [Node.hasReceived, hwaiting]
    · obtain ⟨pid, hpid⟩ := h.sending _ hvmem id (by simp [Shadow.sends])
      exact absurd hpid (hnone pid)

theorem Monitored.injective_step (h : Monitored s vs) (hv : vs[i]? = some v)
    (hstep : MonitorStep s ps i c v s' v' new) (pid pid' id : ℕ)
    (hpid : s'.notifyChannels pid = some id)
    (hpid' : s'.notifyChannels pid' = some id) : pid = pid' := by
  have hnone : ∀ q q', v = .creator id (.locked q) → s.notifyChannels q' ≠ some id := by
    rintro q q' rfl
    exact (h.fresh id (.inr ⟨_, List.mem_of_getElem? hv, by simp [Shadow.isFresh]⟩)).1 q'
  rcases hstep.channel_cases hpid with hold | ⟨-, hset, -, -⟩
  · rcases hstep.channel_cases hpid' with hold' | ⟨-, hset, -, -⟩
    · exact h.injective pid pid' id hold hold'
    · exact absurd hold (hnone pid' pid hset)
  · rcases hstep.channel_cases hpid' with hold' | ⟨-, hset', -, -⟩
    · exact absurd hold' (hnone pid pid' hset)
    · simpa using hset.symm.trans hset'

theorem Monitored.sending_step (h : Monitored s vs) (hv : vs[i]? = some v)
    (hstep : MonitorStep s ps i c v s' v' new) {u : Shadow} (hu : u ∈ advance vs i v' new)
    (hsends : u.sends id) : ∃ pid, s'.notifyChannels pid = some id := by
  have hold : u ∈ vs → ∃ pid, s'.notifyChannels pid = some id := by
    intro humem
    obtain ⟨pid, hpid⟩ := h.sending u humem id hsends
    rcases hstep.notifyChannels_cases with hsame | ⟨id', q, -, rfl, rfl, rfl⟩
    · exact ⟨pid, by rw [hsame, hpid]⟩
    · -- the handler holds the lock for reading, and the one who registers a channel for writing
      obtain ⟨j, hj⟩ := List.mem_iff_getElem?.1 humem
      have hwriting : modeAt Shadow.mode .out vs i = .writing := modeAt_of_getElem? hv
      have hreading : modeAt Shadow.mode .out vs j = .reading := by
        rw [modeAt_of_getElem? hj]
        cases u with
        | handler pc =>
          cases pc with
          | send channel exitCode batch => rfl
          | _ => cases hsends
        | _ => cases hsends
      exact absurd hreading (h.guards.not_reading hwriting)
  rcases mem_of_mem_advance hu with rfl | hsame | hnew
  · cases hstep with
    | handling hs =>
      cases hs with
      | find e batch channel hsome =>
        obtain rfl : channel = id := of_decide_eq_true hsends
        exact ⟨e.pid, hsome⟩
      | _ => cases hsends
    | other | kill => exact hold (List.mem_of_getElem? hv)
    | _ => cases hsends
  · exact hold hsame
  · rcases hstep.mem_new u hnew with rfl | ⟨_, rfl⟩ <;> cases hsends

/-- What a node and one thread contribute to the notifications of the channel that is registered for
the PID. -/
def notifications (pid id : ℕ) (s : Node) (v : Shadow) : ℕ :=
  s.events.countP (·.pid = pid) + v.batch.countP (·.pid = pid) + one (v.sends id) +
    one (s.hasReceived id)

theorem hasExited_congr {s s' : Node} (h : s'.processes.lookup id = s.processes.lookup id) :
    s'.hasExited id = s.hasExited id := by
  unfold Node.hasExited
  rw [h]

theorem countP_cons_pid (pid : ℕ) (e : ExitEvent) (batch : List ExitEvent) :
    (e :: batch).countP (·.pid = pid) = batch.countP (·.pid = pid) + one (e.pid = pid) := by
  simp [List.countP_cons, one]

/-- An exit adds one event, and it is the exit of the process that the channel is for. -/
theorem Node.notifications_terminate {pid j : ℕ} (status : UInt32)
    (hpid : s.notifyChannels pid = some id)
    (howns : s.OwnsPID j) (hbatch : v'.batch = v.batch) (hsends : v'.sends id = v.sends id) :
    notifications pid id (s.terminate j status) v' + one (s.hasExited id) ≤
      notifications pid id s v + one ((s.terminate j status).hasExited id) := by
  rcases s.terminate_cases j status with ⟨h, -⟩ | ⟨p, hp, hrunning, h⟩
  · rw [h]
    unfold notifications
    rw [hbatch, hsends]
  · have hexited : id = j → s.hasExited id = false ∧
        (s.terminate j status).hasExited id = true := by
      rintro rfl
      rw [h]
      simp [Node.hasExited, hp, hrunning]
    have hother : id ≠ j → (s.terminate j status).hasExited id = s.hasExited id := by
      intro hne
      refine hasExited_congr ?_
      rw [h]
      exact AList.lookup_insert_ne hne
    have hown : p.pid = pid → id = j := by
      rintro rfl
      rcases howns p hp hrunning with hnone | hsome
      · rw [hnone] at hpid
        cases hpid
      · rw [hsome] at hpid
        exact (Option.some.inj hpid).symm
    have hevents : (s.terminate j status).events.countP (·.pid = pid) =
        s.events.countP (·.pid = pid) + one (p.pid = pid) := by
      rw [h]
      simp [List.countP_append, List.countP_cons, one]
    have hreceived : (s.terminate j status).hasReceived id = s.hasReceived id :=
      hasReceived_congr (by rw [h])
    unfold notifications
    rw [hevents, hreceived, hbatch, hsends]
    by_cases hj : id = j
    · obtain ⟨hbefore, hafter⟩ := hexited hj
      rw [hbefore, hafter]
      have : one (p.pid = pid) ≤ one true := one_le_one fun _ => rfl
      have : one false = 0 := rfl
      omega
    · have : one (p.pid = pid) = 0 := by simp [one, mt hown hj]
      rw [hother hj]
      omega

/-- **A step adds to the notifications of a registered channel only with the exit of its process.**
-/
theorem MonitorStep.notifications {pid : ℕ} (h : MonitorStep s ps i c v s' v' new)
    (hpid : s.notifyChannels pid = some id)
    (hinjective : ∀ q, s.notifyChannels q = some id → q = pid) (hfresh : v.isFresh id = false) :
    notifications pid id s' v' + one (s.hasExited id) ≤ notifications pid id s v +
      one (s'.hasExited id) := by
  cases h with
  | other hview hprocesses =>
    have hevents : s'.events = s.events := congrArg View.events hview
    have hchannels : s'.channels = s.channels := congrArg View.channels hview
    unfold WorkerNode.notifications
    rw [hevents, hasReceived_congr (congrFun hchannels id), hasExited_congr (by rw [hprocesses])]
  | @start j pid' network =>
    have hne : id ≠ j := by
      rintro rfl
      simp [Shadow.isFresh] at hfresh
    have hexited : (s.startProcess j pid' network).hasExited id = s.hasExited id :=
      hasExited_congr (AList.lookup_insert_ne hne)
    rw [hexited]
    rfl
  | kill hv howns => exact Node.notifications_terminate 9 hpid howns rfl rfl
  | exit _ howns => exact Node.notifications_terminate _ hpid howns rfl rfl
  | @foreignExit q status hnone =>
    have hq : q ≠ pid := by
      rintro rfl
      rw [hnone] at hpid
      cases hpid
    have hevents : (s.events ++ [ExitEvent.mk q status]).countP (·.pid = pid) =
        s.events.countP (·.pid = pid) := by
      simp [List.countP_append, hq]
    unfold WorkerNode.notifications
    rw [hevents]
    rfl
  | @watching j _ _ _ hstep =>
    cases hstep with
    | receive =>
      have hreceived :
        one (Node.hasReceived { s with channels := Function.update s.channels j .waiting } id)
          ≤ one (s.hasReceived id) := by
        refine one_le_one fun h => ?_
        by_cases hj : id = j
        · subst hj
          simp [Node.hasReceived] at h
        · rwa [hasReceived_congr (Function.update_of_ne hj _ _)] at h
      exact Nat.add_le_add_right (Nat.add_le_add_left hreceived _) _
    | _ => exact le_rfl
  | handling hstep =>
    cases hstep with
    | read n =>
      have hsplit :
          (s.events.drop n).countP (·.pid = pid) + (s.events.take n).countP (·.pid = pid) =
            s.events.countP (·.pid = pid) := by
        rw [add_comm, ← List.countP_append, List.take_append_drop]
      refine Nat.add_le_add_right (Nat.add_le_add_right (Nat.add_le_add_right ?_ _) _) _
      exact hsplit.le
    | skip e batch =>
      have hbatch := countP_cons_pid pid e batch
      simp only [WorkerNode.notifications, Shadow.batch, Handler.batch, Shadow.sends, hbatch]
      omega
    | find e batch channel hsome =>
      -- the event that is taken is one of the PID, and the send is on its channel
      have hbatch := countP_cons_pid pid e batch
      have hone : one (channel = id) ≤ one (e.pid = pid) := by
        refine one_le_one fun hchannel => ?_
        obtain rfl : channel = id := of_decide_eq_true hchannel
        exact decide_eq_true (hinjective e.pid hsome)
      have hzero : one false = 0 := rfl
      simp only [WorkerNode.notifications, Shadow.batch, Handler.batch, Shadow.sends, hbatch]
      omega
    | send channel exitCode batch hwaiting =>
      have hone : one (Node.hasReceived
          { s with channels := Function.update s.channels channel (.received exitCode) } id) ≤
          one (channel = id) + one (s.hasReceived id) := by
        by_cases hj : id = channel
        · simp [hj, one, Node.hasReceived]
        · rw [hasReceived_congr (Function.update_of_ne hj _ _)]
          exact Nat.le_add_left _ _
      have hzero : one false = 0 := rfl
      have hexited : Node.hasExited
          { s with channels := Function.update s.channels channel (.received exitCode) } id =
          s.hasExited id := rfl
      simp only [WorkerNode.notifications, Shadow.batch, Handler.batch, Shadow.sends, hexited]
      omega
    | _ => exact le_rfl
  | _ => exact le_rfl

/-- The events that are on their way are those that are counted. -/
theorem Monitored.once_step (h : Monitored s vs) (hv : vs[i]? = some v)
    (hps : ∀ pid, (∀ e ∈ ps, e.pid ≠ pid) → pendingCount pid s vs = 0)
    (hstep : MonitorStep s ps i c v s' v' new) (pid id : ℕ)
    (hpid : s'.notifyChannels pid = some id) :
    pendingCount pid s' (advance vs i v' new) + (advance vs i v' new).countP (·.sends id)
      + one (s'.hasReceived id) ≤ one (s'.hasExited id) := by
  have hvmem : v ∈ vs := List.mem_of_getElem? hv
  have hpending := hstep.pendingCount_advance hv pid
  have hcount := hstep.countP_advance hv (·.sends id) rfl fun _ => rfl
  have hold : s.notifyChannels pid = some id → pendingCount pid s' (advance vs i v' new)
      + (advance vs i v' new).countP (·.sends id) + one (s'.hasReceived id) ≤
      one (s'.hasExited id) := by
    intro hpid
    have hfresh : v.isFresh id = false := by
      cases hfresh : v.isFresh id with
      | false => rfl
      | true => exact absurd hpid ((h.fresh id (.inr ⟨v, hvmem, hfresh⟩)).1 pid)
    have hbalance := hstep.notifications hpid (fun q hq => h.injective q pid id hq hpid) hfresh
    have honce := h.once pid id hpid
    unfold WorkerNode.notifications at hbalance
    omega
  rcases hstep.channel_cases hpid with hpid | ⟨hnone, rfl, rfl, rfl⟩
  · exact hold hpid
  · -- a channel that has just been registered has no notifications
    obtain ⟨hunset, hreceived⟩ := h.fresh id (.inr ⟨_, hvmem, by simp [Shadow.isFresh]⟩)
    have hzero := hps pid hnone
    have hsends : vs.countP (·.sends id) = 0 := by
      rw [List.countP_eq_zero]
      intro u hu hsends
      obtain ⟨q, hq⟩ := h.sending u hu id hsends
      exact hunset q hq
    have hone : one ((s.setChannel pid id).hasReceived id) = 0 := by
      have hsame : (s.setChannel pid id).hasReceived id = s.hasReceived id := hasReceived_congr rfl
      rw [hsame, hreceived]
      rfl
    have hevents : (s.setChannel pid id).events = s.events := rfl
    have hlocked : (Shadow.creator id (.locked pid)).sends id =
      (Shadow.creator id .unlocking).sends id := rfl
    simp only [hevents, Shadow.batch] at hpending
    simp only [hlocked] at hcount
    omega

/-- **Every step of the monitor keeps the invariant.** -/
theorem Monitored.step (h : Monitored s vs) (hv : vs[i]? = some v)
    (hps : ∀ pid, (∀ e ∈ ps, e.pid ≠ pid) → pendingCount pid s vs = 0)
    (hstep : MonitorStep s ps i c v s' v' new) : Monitored s' (advance vs i v' new) where
  guards := hstep.guards hv h.guards
  creators id := hstep.creators hv id (h.creators id)
  fresh := h.fresh_step hv hstep
  injective := h.injective_step hv hstep
  sending _ hu _ := h.sending_step hv hstep hu
  once := h.once_step hv hps hstep

end

/-! ## Runs -/

theorem pendingCount_eq_zero {pid : ℕ} (h : ∀ e ∈ pending s, e.pid ≠ pid) :
    pendingCount pid s.shared (s.threads.map Thread.shadow) = 0 := by
  have hevents : s.shared.events.countP (·.pid = pid) = 0 := by
    rw [List.countP_eq_zero]
    intro e he hpid
    exact h e (List.mem_append_left _ he) (of_decide_eq_true hpid)
  have hbatches : ((s.threads.map Thread.shadow).map fun v =>
      v.batch.countP (·.pid = pid)).sum = 0 := by
    refine List.sum_eq_zero (List.forall_mem_map.2 (List.forall_mem_map.2 fun t ht => ?_))
    rw [List.countP_eq_zero]
    intro e he hpid
    exact h e (List.mem_append_right _ (List.mem_flatMap.2 ⟨t, ht, he⟩)) (of_decide_eq_true hpid)
  unfold pendingCount
  rw [hevents, hbatches]

theorem Monitored.start {s : Node} {v : Shadow} (h : Monitored s vs) (hmode : v.mode = .out)
    (hcreator : ∀ id, v.isCreator id = false) (hsends : ∀ id, v.sends id = false)
    (hbatch : v.batch = []) : Monitored s (vs ++ [v]) where
  guards := by
    rw [modeAt_append _ _ hmode]
    exact h.guards
  creators id := by
    have hcreators := h.creators id
    rw [List.countP_append]
    simpa [hcreator id] using hcreators
  fresh id hfresh := by
    refine h.fresh id (hfresh.imp_right ?_)
    rintro ⟨u, hu, hfresh⟩
    rcases List.mem_append.1 hu with hu | hu
    · exact ⟨u, hu, hfresh⟩
    · rw [List.mem_singleton.1 hu] at hfresh
      exact absurd (Shadow.isCreator_of_isFresh hfresh) (by simp [hcreator])
  injective := h.injective
  sending := forall_mem_concat h.sending fun id hid => absurd hid (by simp [hsends])
  once pid id hpid := by
    have honce := h.once pid id hpid
    simpa [pendingCount, List.countP_append, hsends id, hbatch] using honce

theorem monitored_init (h : (workerNode r).init s) :
    Monitored s.shared (s.threads.map Thread.shadow) := by
  obtain ⟨s, ts⟩ := s
  obtain ⟨⟨_, _, _, _, rfl⟩, rfl⟩ := h
  have hout : modeAt Shadow.mode .out (List.map Thread.shadow [.eventHandler .read, .populate])
      = fun _ => .out := by
    funext i
    rcases i with _ | _ | i <;> rfl
  refine ⟨by rw [hout]; exact RWMutex.guards_init, fun id => ?_, fun id _ => ?_, ?_, ?_, ?_⟩
  · simp [Thread.shadow, Shadow.isCreator]
  · exact ⟨fun pid h => (by cases h), rfl⟩
  · rintro pid pid' id h -
    cases h
  · simp [Thread.shadow, Shadow.sends]
  · rintro pid id h
    cases h

theorem monitored_step {s₁ : Node} (h : Monitored s.shared (s.threads.map Thread.shadow))
    (ht : s.threads[i]? = some t) (hs : t.step s.shared i c = some (s₁, t', new))
    (horderly : t.Orderly s c) :
    Monitored s₁ ((advance s.threads i t' new).map Thread.shadow) := by
  rw [map_advance]
  refine h.step ?_ (fun pid => pendingCount_eq_zero) (step_monitor hs horderly)
  rw [List.getElem?_map, ht]
  rfl

theorem monitored_of_run {tr : List NodeStep} (h : (workerNode r).Run tr s)
    (hG : ∀ st ∈ tr, StepSatisfies Thread.Orderly st) :
    Monitored s.shared (s.threads.map Thread.shadow) := by
  refine run_invariant (I := fun _ s => Monitored s.shared (s.threads.map Thread.shadow))
    (fun s => monitored_init) ?_ ?_ h hG
  · rintro tr s a _ hI - rfl
    rw [List.map_append]
    cases a <;> exact hI.start rfl (fun _ => rfl) (fun _ => rfl) rfl
  · rintro tr s i c t s₁ t' new _ hI horderly ht hs rfl
    exact monitored_step hI ht hs (horderly t ht)

theorem Monitored.channels_ne {s : Node} (h : Monitored s vs) {id : ℕ} {exitCode : UInt32}
    {batch : List ExitEvent} (hmem : .handler (.send id exitCode batch) ∈ vs) (received : UInt32) :
    s.channels id ≠ .received received := by
  intro hreceived
  have hsends : (Shadow.handler (.send id exitCode batch)).sends id := by simp [Shadow.sends]
  obtain ⟨pid, hpid⟩ := h.sending _ hmem id hsends
  have honce := h.once pid id hpid
  have hpos : 0 < vs.countP (·.sends id) := List.countP_pos_iff.2 ⟨_, hmem, hsends⟩
  have htrue : s.hasReceived id = true := by simp [Node.hasReceived, hreceived]
  have hle : one (s.hasExited id) ≤ one true := one_le_one fun _ => rfl
  rw [htrue] at honce
  omega

/-- **The handler never sends on a channel whose value has been received**, if processes exit and
channels are registered as `Thread.Orderly` says. -/
theorem neverBlocks_of_run {r : Runtime} {tr : List NodeStep} {s : Pool Node Thread}
    (h : (workerNode r).Run tr s) (hG : ∀ st ∈ tr, StepSatisfies Thread.Orderly st) (id : ℕ)
    (exitCode : UInt32) (batch : List ExitEvent)
    (hsend : .eventHandler (.send id exitCode batch) ∈ s.threads) (received : UInt32) :
    s.shared.channels id ≠ .received received :=
  (monitored_of_run h hG).channels_ne (List.mem_map.2 ⟨_, hsend, rfl⟩) received

instance (s : Node) (id : ℕ) : Decidable (s.OwnsPID id) :=
  inferInstanceAs (Decidable (∀ p ∈ s.processes.lookup id, _))

instance (s : Pool Node Thread) (c : Choice) : DecidablePred (Thread.Orderly s c) := fun
  | .exit id _ => inferInstanceAs (Decidable (s.shared.OwnsPID id))
  | .foreignExit pid _ => inferInstanceAs (Decidable (s.shared.notifyChannels pid = none))
  | .delete id pc => inferInstanceAs (Decidable (pc.kills → c = .ok → s.shared.OwnsPID id))
  | .create id info pc => by
    cases pc with
    | delete pc => exact inferInstanceAs (Decidable (pc.kills → c = .ok → s.shared.OwnsPID id))
    | addChannel m pc =>
      cases pc with
      | set => exact inferInstanceAs (Decidable (∀ e ∈ pending s, e.pid ≠ m.runtime.pid))
      | _ => exact .isTrue trivial
    | _ => exact .isTrue trivial
  | .createSandbox _ _ | .watch _ _ | .eventHandler _ | .populate | .done => .isTrue trivial

/-- The process of a sandbox exits, its failure is reported, and the next sandbox gets its PID. -/
theorem neverBlocks_of_reused : ∃ tr s, (workerNode .containerd).Run tr s ∧
    (∀ st ∈ tr, StepSatisfies Thread.Orderly st) ∧ s.shared.reports = [0] ∧
    .eventHandler (.send 1 384 []) ∈ s.threads ∧ ∀ received, s.shared.channels 1 ≠
      .received received := by
  obtain ⟨tr, s, hrun, horderly, hreports, hsend⟩ : ∃ tr s, (workerNode .containerd).Run tr s ∧
      (∀ st ∈ tr, StepSatisfies Thread.Orderly st) ∧ s.shared.reports = [0] ∧
      .eventHandler (.send 1 384 []) ∈ s.threads :=
    Machine.exists_run_of_play (containerdCreation 2 "f" "10.0.0.2" 100 2000 ++ makes 3 [.ok] ++
      .start (.exit 0 256) :: makes 4 [.ok] ++ makes 0 [.batch 1, .ok, .ok, .ok, .ok] ++
        makes 3 [.ok, .ok] ++
      containerdCreation 5 "f" "10.0.0.3" 100 2001 ++ makes 6 [.ok] ++
      .start (.exit 1 256) :: makes 7 [.ok] ++ makes 0 [.batch 1, .ok, .ok]) (started_init _)
      (by decide +kernel)
  exact ⟨tr, s, hrun, horderly, hreports, hsend, neverBlocks_of_run hrun horderly 1 384 [] hsend⟩

/-- The process of a sandbox exits, its failure is reported, and another process gets its PID and
exits: the handler sends to a receiver that has returned, and holds the lock. -/
theorem exists_blocked_send : ∃ tr s, (workerNode .containerd).Run tr s ∧
    .eventHandler (.send 0 384 []) ∈ s.threads ∧ s.shared.channels 0 = .received 384 ∧
    .watch 0 .returned ∈ s.threads ∧ s.shared.monitor.lock 2 = none :=
  Machine.exists_run_of_play (containerdCreation 2 "f" "10.0.0.2" 100 2000 ++ makes 3 [.ok] ++
    .start (.exit 0 256) :: makes 4 [.ok] ++ makes 0 [.batch 1, .ok, .ok, .ok, .ok] ++
      makes 3 [.ok, .ok] ++
    .start (.foreignExit 100 256) :: makes 5 [.ok] ++ makes 0 [.batch 1, .ok, .ok]) (started_init _)
    (by decide +kernel)

end Dirigent.WorkerNode
