import Dirigent.WorkerNode.Monitor

/-!
# Failures of sandboxes are reported

The process of a sandbox exits, the handler of the process monitor finds the channel of its PID and
sends the exit code, and the receiver reports the failure, unless the code is that of `SIGKILL`.
Whether somebody has called `DeleteSandbox` is inferred from the exit code alone.

**The way of a notification** (`Notified`). An exit event that has not been read, one that the
handler has read, the handler's send, the received value, the receiver that has it. A step moves a
notification one place further or leaves it (`Receivers.forward`), and no new one appears but by an
exit (`notified_backward`).

**Nothing stops it** (`Receivers`). A channel that is registered has a receiver, or its
`CreateSandbox` is about to start it, and nobody keeps the handler from the lock for long. So where
neither the handler nor a receiver nor a `CreateSandbox` that registers its sandbox can make a step
(`Settled`), nothing is on its way. They make only so many steps (`rank`).

* **`reportsExactly_of_run`** — failures are reported exactly, if processes exit as
  `Thread.ReportsExactly` says: with another status than that of `SIGKILL`, and with a registered
  channel, unless `DeleteSandbox` has been called, and the other way round after such a call.
-/

namespace Dirigent.WorkerNode

open Threads

/-! ## The statement -/

/-- `DeleteSandbox` has been called for the sandbox, by a client or by `CreateSandbox`. -/
def Thread.deletes (id : ℕ) : Thread → Bool
  | .delete id' _ | .create id' _ (.delete _) | .create id' _ (.failed (.notReady _)) => id' = id
  | _ => false

/-- The channel that is registered for the PID of the sandbox's process is the sandbox's. -/
def Node.IsRegistered (s : Node) (id : ℕ) : Prop :=
  ∀ p ∈ s.processes.lookup id, s.notifyChannels p.pid = some id

/-- A step is orderly, and the exit status tells whether the sandbox has been deleted: a process
that exits before `DeleteSandbox` is called has a registered channel and is not killed; one that
exits later has none or is killed. The events of the kernel can be read. -/
def Thread.ReportsExactly (s : Pool Node Thread) (c : Choice) (t : Thread) : Prop :=
  t.Orderly s c ∧
    match t with
    | .exit id status =>
      if ∃ u ∈ s.threads, u.deletes id then status = 9 ∨ ¬ s.shared.IsRegistered id
      else status ≠ 9 ∧ s.shared.IsRegistered id
    | .eventHandler .read => c ≠ .fails
    | _ => True

/-- In this step the process of the sandbox exits, and `DeleteSandbox` has not been called for it.
-/
def FailsAt (id : ℕ) (st : NodeStep) : Prop :=
  match st.event with
  | .start _ => False
  | .run i _ => (∃ status, st.src.threads[i]? = some (.exit id status)) ∧
      ∀ u ∈ st.src.threads, u.deletes id = false

/-- The process of the sandbox has exited without a call of `DeleteSandbox`. -/
def Failed (id : ℕ) (tr : List NodeStep) : Prop := ∃ st ∈ tr, FailsAt id st

/-- The handler, a receiver, or a `CreateSandbox` that registers its sandbox: they wait for one
another only. -/
def Thread.isInternal : Thread → Bool
  | .eventHandler _ | .watch _ _ => true
  | .create _ _ (.addChannel _ _) | .create _ _ (.addSandbox _) | .create _ _ (.watch _) => true
  | _ => false

/-- None of them can make a step. -/
def Settled (s : Pool Node Thread) : Prop :=
  ∀ (i : ℕ) (c : Choice) (t : Thread), s.threads[i]? = some t → t.isInternal → c ≠ .fails →
    t.step s.shared i c = none

/-- One of them makes a step. -/
def Internal (st : NodeStep) : Prop :=
  match st.event with
  | .start _ => False
  | .run i c => c ≠ .fails ∧ ∃ t ∈ st.src.threads[i]?, t.isInternal

/-! ## How many steps they can make -/

def Handler.rank : Handler → ℕ
  | .read | .exited => 0
  | .rlock batch => 2 * batch.length + 2
  | .loop batch => 2 * batch.length + 1
  | .send _ _ batch => 2 * batch.length + 2

def Watch.rank : Watch → ℕ
  | .receive => 3
  | .waiting => 2
  | .received _ => 1
  | .returned => 0

/-- A receiver is still to be started. -/
def Create.rank : Create → ℕ
  | .addSandbox m => if m.runtime.isContainerd then 5 else 9
  | .addChannel _ .lock => 8
  | .addChannel _ .set => 7
  | .addChannel _ .unlock => 6
  | .watch _ => 4
  | _ => 0

def Thread.rank : Thread → ℕ
  | .create _ _ pc => pc.rank
  | .watch _ pc => pc.rank
  | .eventHandler pc => pc.rank
  | _ => 0

/-- A bound on the internal steps. -/
def rank (s : Pool Node Thread) : ℕ := 5 * s.shared.events.length + (s.threads.map Thread.rank).sum

section

variable {s s' : Node} {i : ℕ} {c : Choice}

theorem Handled.rank_lt {pc pc' : Handler} (h : Handled s i c pc s' pc') (hc : c ≠ .fails) :
    5 * s'.events.length + pc'.rank < 5 * s.events.length + pc.rank := by
  cases h with
  | read n hpos hle =>
    show 5 * (s.events.drop n).length + (2 * (s.events.take n).length + 2) < 5 * s.events.length + 0
    rw [List.length_drop, List.length_take]
    omega
  | readFails hfails => exact absurd hfails hc
  | _ =>
    simp only [Handler.rank, List.length_cons, List.length_nil]
    omega

theorem Watched.rank_lt {id : ℕ} {pc pc' : Watch} (h : Watched s id pc s' pc') :
    5 * s'.events.length + pc'.rank < 5 * s.events.length + pc.rank := by
  cases h <;> simp [Watch.rank]

theorem Creates.rank_lt {id : ℕ} {info : ServiceInfo} {pc pc' : Create} {new : List Thread}
    (h : Creates s i id info c pc s' pc' new) (hinternal : (Thread.create id info pc).isInternal) :
    5 * s'.events.length + pc'.rank + (new.map Thread.rank).sum <
      5 * s.events.length + pc.rank := by
  cases h with
  | lock | unlockFirecracker m hr => simp [Create.rank]
  | set => simp [Create.rank, Node.setChannel]
  | unlockContainerd m hr | addContainerd m hr | addFirecracker m hr => simp [Create.rank, hr]
  | watchContainerd | watchFirecracker => simp [Create.rank, Thread.rank, Watch.rank]
  | fails _ _ hf => cases pc <;> cases hf <;> cases hinternal
  | _ => cases hinternal

theorem step_rank {t t' : Thread} {new : List Thread} (h : t.step s i c = some (s', t', new))
    (hinternal : t.isInternal) (hc : c ≠ .fails) :
    5 * s'.events.length + t'.rank + (new.map Thread.rank).sum < 5 * s.events.length + t.rank := by
  cases Thread.step_cases h with
  | create hstep => exact hstep.rank_lt hinternal
  | watch hstep => exact hstep.rank_lt
  | eventHandler hstep => exact hstep.rank_lt hc
  | _ => cases hinternal

end

variable {r : Runtime} {s : Pool Node Thread} {tr : List NodeStep} {id : ℕ}

/-- **There are only so many internal steps in a row.** -/
theorem length_le_rank {s' : Pool Node Thread} (h : ((workerNode r).startingAt s).Run tr s')
    (hinternal : ∀ st ∈ tr, Internal st) :
    tr.length + rank s' ≤ rank s := by
  refine h.invariant (I := fun tr s' => tr.length + rank s' ≤ rank s) ?_ ?_ hinternal
  · rintro _ rfl
    simp
  · intro tr s₁ e s₂ _ hI hG hn
    rcases Threads.next_cases hn with ⟨a, t, rfl, -, -⟩ | ⟨i, c, t, σ, t', new, rfl, ht, hs, rfl⟩
    · exact hG.elim
    · obtain ⟨hc, u, hu, hinternal⟩ := hG
      obtain rfl : t = u := Option.some.inj (ht.symm.trans hu)
      have hrank := step_rank hs hinternal hc
      have hsum := sum_advance Thread.rank ht t' new
      simp only [rank, List.length_cons] at hI ⊢
      omega

theorem settled_of_rank (h : rank s = 0) : Settled s := by
  intro i c t ht hinternal hc
  obtain ⟨hevents, hranks⟩ := Nat.add_eq_zero_iff.1 h
  have hrank : t.rank = 0 :=
    List.sum_eq_zero_iff.1 hranks _ (List.mem_map.2 ⟨t, List.mem_of_getElem? ht, rfl⟩)
  cases hs : t.step s.shared i c with
  | none => rfl
  | some r =>
    have hlt := step_rank hs hinternal hc
    omega

/-! ## Receivers -/

namespace Shadow

def isWatcher (id : ℕ) : Shadow → Bool
  | .watcher id' _ => id' = id
  | _ => false

/-- The receiver of the sandbox has not been started. -/
def isUnwatched (id : ℕ) : Shadow → Bool
  | .creator _ .watched | .creator _ .deleting => false
  | .creator id' _ => id' = id
  | _ => false

/-- The channel of the sandbox is registered, and its receiver has not been started. -/
def isRegistering (id : ℕ) : Shadow → Bool
  | .creator id' .unlocking | .creator id' .registered => id' = id
  | _ => false

end Shadow

/-- **Each channel has one receiver.** -/
structure Receivers (s : Node) (vs : List Shadow) : Prop where
  unwatched : ∀ id, (s.created ≤ id ∨ ∃ v ∈ vs, v.isUnwatched id) →
    s.channels id = .unused ∧ ∀ pc, .watcher id pc ∉ vs
  watchers : ∀ id, vs.countP (·.isWatcher id) ≤ 1
  receive : ∀ id, .watcher id .receive ∈ vs → s.channels id = .unused
  waiting : ∀ id, s.channels id = .waiting → .watcher id .waiting ∈ vs
  registered : ∀ pid id, s.notifyChannels pid = some id → s.channels id = .unused →
    (∃ v ∈ vs, v.isRegistering id) ∨ .watcher id .receive ∈ vs
  handler : ∃ pc, .handler pc ∈ vs ∧ pc ≠ .exited
  unclaimed : s.monitor.waiting = none

section

variable {s s' : Node} {vs : List Shadow} {ps : List ExitEvent} {i id : ℕ} {c : Choice}
  {v v' : Shadow} {new : List Shadow}

theorem MonitorStep.watcher_cases (h : MonitorStep s ps i c v s' v' new) (hv : vs[i]? = some v)
    {pc : Watch} (hmem : .watcher id pc ∈ advance vs i v' new) :
    (v = .creator id .registered ∧ v' = .creator id .watched ∧ new = [.watcher id .receive] ∧
      pc = .receive ∧ s' = s) ∨
    (∃ pc₀, v = .watcher id pc₀ ∧ v' = .watcher id pc ∧ (pc = .receive → pc₀ = .receive)) ∨
      ∃ j, j ≠ i ∧ vs[j]? = some (.watcher id pc) := by
  rcases mem_advance hv hmem with rfl | hother | hnew
  · refine .inr (.inl ?_)
    cases h with
    | other => exact ⟨pc, rfl, rfl, fun h => h⟩
    | @watching _ pc₀ _ _ hstep =>
      refine ⟨pc₀, rfl, rfl, ?_⟩
      rintro rfl
      cases hstep
    | kill hv => rcases hv with hv | hv <;> cases hv
  · exact .inr (.inr hother)
  · cases h with
    | other _ _ _ hidle => cases hidle _ hnew
    | watch =>
      have heq := List.mem_singleton.1 hnew
      simp only [Shadow.watcher.injEq] at heq
      obtain ⟨rfl, rfl⟩ := heq
      exact .inl ⟨rfl, rfl, rfl, rfl, rfl⟩
    | _ => cases hnew

theorem MonitorStep.isUnwatched (h : MonitorStep s ps i c v s' v' new) (hv : vs[i]? = some v)
    (hun : s'.created ≤ id ∨ ∃ u ∈ advance vs i v' new, u.isUnwatched id) :
    s.created ≤ id ∨ ∃ u ∈ vs, u.isUnwatched id := by
  rcases hun with hle | ⟨u, hu, hun⟩
  · rcases h.created_cases with ⟨hcreated, -⟩ | ⟨hcreated, -, -⟩ <;> exact .inl (by omega)
  · rcases mem_of_mem_advance hu with rfl | hsame | hnew
    · have hvmem := List.mem_of_getElem? hv
      cases h with
      | begin =>
        have hid : s.created = id := of_decide_eq_true hun
        exact .inl hid.le
      | other | start | lock | set | unlock | kill => exact .inr ⟨_, hvmem, hun⟩
      | _ => cases hun
    · exact .inr ⟨u, hsame, hun⟩
    · rcases h.mem_new u hnew with rfl | ⟨_, rfl⟩ <;> cases hun

theorem Shadow.isCreator_of_isUnwatched {v : Shadow} (h : v.isUnwatched id) : v.isCreator id := by
  cases v with
  | creator id' phase => cases phase <;> simp_all [Shadow.isUnwatched, Shadow.isCreator]
  | _ => cases h

namespace Receivers

variable (h : Receivers s vs) (hv : vs[i]? = some v) (hstep : MonitorStep s ps i c v s' v' new)

include h hv hstep

theorem unwatched_step (hM : Monitored s vs) (id : ℕ)
    (hun : s'.created ≤ id ∨ ∃ u ∈ advance vs i v' new, u.isUnwatched id) :
    s'.channels id = .unused ∧ ∀ pc, .watcher id pc ∉ advance vs i v' new := by
  have hvmem := List.mem_of_getElem? hv
  obtain ⟨hunused, hnone⟩ := h.unwatched id (hstep.isUnwatched hv hun)
  constructor
  · rcases hstep.channels_cases id with hsame | ⟨rfl, -, -⟩ | ⟨_, _, -, -, hwaiting, -⟩
    · rw [hsame, hunused]
    · exact absurd hvmem (hnone _)
    · simp [hwaiting] at hunused
  · intro pc hmem
    rcases hstep.watcher_cases hv hmem with ⟨rfl, rfl, rfl, -, rfl⟩ | ⟨pc₀, rfl, -, -⟩ | ⟨j, -, hj⟩
    · -- the receiver has just been started, by the only creator of the sandbox
      have hcreator : (Shadow.creator id .registered).isCreator id := by simp [Shadow.isCreator]
      rcases hun with hle | ⟨u, hu, hun⟩
      · exact hM.not_created_le hvmem hcreator hle
      · rw [hM.eq_of_mem_advance hv hcreator hstep hu (Shadow.isCreator_of_isUnwatched hun)] at hun
        cases hun
    · exact hnone pc₀ hvmem
    · exact hnone pc (List.mem_of_getElem? hj)

theorem watchers_step (id : ℕ) : (advance vs i v' new).countP (·.isWatcher id) ≤ 1 := by
  have hcount := countP_advance (·.isWatcher id) hv v' new
  have hone := h.watchers id
  have hkeep : v'.isWatcher id = v.isWatcher id → new.countP (·.isWatcher id) = 0 →
      (advance vs i v' new).countP (·.isWatcher id) ≤ 1 := by
    intro hsame hnew
    rw [hsame, hnew] at hcount
    omega
  cases hstep with
  | other _ _ _ hidle =>
    exact hkeep rfl (List.countP_eq_zero.2 fun u hu => by simp [hidle u hu, Shadow.isWatcher])
  | @watch j =>
    by_cases hj : j = id
    · subst hj
      have hun : (Shadow.creator j .registered).isUnwatched j := by simp [Shadow.isUnwatched]
      have hnone := (h.unwatched j (.inr ⟨_, List.mem_of_getElem? hv, hun⟩)).2
      have hzero : vs.countP (·.isWatcher j) = 0 := by
        rw [List.countP_eq_zero]
        intro u hu hwatcher
        cases u with
        | watcher j' pc =>
          obtain rfl : j' = j := of_decide_eq_true hwatcher
          exact hnone pc hu
        | _ => cases hwatcher
      have hnew : [Shadow.watcher j .receive].countP (·.isWatcher j) = 1 := by
        simp [Shadow.isWatcher]
      have hfalse : ∀ phase, (Shadow.creator j phase).isWatcher j = false := fun _ => rfl
      simp only [hzero, hnew, hfalse, Bool.false_eq_true, if_false] at hcount
      omega
    · exact hkeep rfl (by simp [Shadow.isWatcher, hj])
  | _ => exact hkeep rfl rfl

theorem receive_step (id : ℕ) (hmem : .watcher id .receive ∈ advance vs i v' new) :
    s'.channels id = .unused := by
  have hvmem := List.mem_of_getElem? hv
  rcases hstep.watcher_cases hv hmem with ⟨rfl, -, -, -, rfl⟩ |
    ⟨pc₀, rfl, rfl, hreceive⟩ | ⟨j, hji, hj⟩
  · exact (h.unwatched id (.inr ⟨_, hvmem, by simp [Shadow.isUnwatched]⟩)).1
  · rw [hreceive rfl] at hvmem
    rcases hstep.channels_cases id with hsame | ⟨-, hne, -⟩ | ⟨_, _, hne, -, -, -⟩
    · rw [hsame, h.receive id hvmem]
    · cases hne
    · cases hne
  · have hunused := h.receive id (List.mem_of_getElem? hj)
    rcases hstep.channels_cases id with hsame | ⟨rfl, -, -⟩ | ⟨_, _, -, -, hwaiting, -⟩
    · rw [hsame, hunused]
    · -- there is one receiver only
      have hself : (Shadow.watcher id .receive).isWatcher id := by simp [Shadow.isWatcher]
      simp [eq_false_of_countP_le_one (h.watchers id) hv hself hj hji] at hself
    · simp [hwaiting] at hunused

theorem waiting_step (id : ℕ) (hwaiting : s'.channels id = .waiting) :
    .watcher id .waiting ∈ advance vs i v' new := by
  rcases hstep.channels_cases id with hsame | ⟨-, rfl, -⟩ | ⟨_, _, -, -, -, hreceived⟩
  · rw [hsame] at hwaiting
    have hmem := h.waiting id hwaiting
    by_cases hne : .watcher id .waiting = v
    · subst hne
      cases hstep with
      | other => exact mem_advance_self _ _ hv
      | watching hs =>
        cases hs with
        | received exitCode hreceived => simp [hwaiting] at hreceived
      | kill hk => rcases hk with hk | hk <;> cases hk
    · exact mem_advance_of_ne _ _ hv hmem hne
  · exact mem_advance_self _ _ hv
  · simp [hreceived] at hwaiting

theorem registered_step (pid id : ℕ) (hpid : s'.notifyChannels pid = some id)
    (hunused : s'.channels id = .unused) :
    (∃ u ∈ advance vs i v' new, u.isRegistering id) ∨
      .watcher id .receive ∈ advance vs i v' new := by
  have hself := mem_advance_self v' new hv
  have hsame : s'.channels id = s.channels id := by
    rcases hstep.channels_cases id with hsame | ⟨-, -, hwaiting⟩ | ⟨_, _, -, -, -, hreceived⟩
    · exact hsame
    · simp [hunused] at hwaiting
    · simp [hunused] at hreceived
  rcases hstep.channel_cases hpid with hpid | ⟨-, rfl, rfl, rfl⟩
  · rcases h.registered pid id hpid (hsame.symm.trans hunused) with ⟨u, hu, hreg⟩ | hmem
    · by_cases hne : u = v
      · subst hne
        cases hstep with
        | other | unlock => exact .inl ⟨_, hself, hreg⟩
        | @watch j =>
          obtain rfl : j = id := of_decide_eq_true hreg
          exact .inr (List.mem_append_right _ List.mem_cons_self)
        | kill hk => rcases hk with rfl | rfl <;> cases hreg
        | _ => cases hreg
      · exact .inl ⟨u, mem_advance_of_ne _ _ hv hu hne, hreg⟩
    · by_cases hne : .watcher id .receive = v
      · subst hne
        cases hstep with
        | other => exact .inr hself
        | watching hs =>
          cases hs with
          | receive => simp at hunused
        | kill hk => rcases hk with hk | hk <;> cases hk
      · exact .inr (mem_advance_of_ne _ _ hv hmem hne)
  · exact .inl ⟨_, hself, by simp [Shadow.isRegistering]⟩

theorem handler_step (hread : v = .handler .read → c ≠ .fails) :
    ∃ pc, .handler pc ∈ advance vs i v' new ∧ pc ≠ .exited := by
  have hself := mem_advance_self v' new hv
  obtain ⟨pc, hmem, hpc⟩ := h.handler
  by_cases hne : .handler pc = v
  · subst hne
    cases hstep with
    | other => exact ⟨pc, hself, hpc⟩
    | @handling _ pc' _ hs =>
      refine ⟨pc', hself, ?_⟩
      cases hs with
      | readFails hfails => exact absurd hfails (hread rfl)
      | _ => exact Handler.noConfusion
    | kill hk => rcases hk with hk | hk <;> cases hk
  · exact ⟨pc, mem_advance_of_ne _ _ hv hmem hne, hpc⟩

/-- **Every step of the monitor keeps the receivers**, as long as the events of the kernel can be
read. -/
theorem step (hM : Monitored s vs) (hread : v = .handler .read → c ≠ .fails) :
    Receivers s' (advance vs i v' new) where
  unwatched := h.unwatched_step hv hstep hM
  watchers := h.watchers_step hv hstep
  receive := h.receive_step hv hstep
  waiting := h.waiting_step hv hstep
  registered := h.registered_step hv hstep
  handler := h.handler_step hv hstep hread
  unclaimed := hstep.move.1.waiting.trans h.unclaimed

end Receivers

end

/-! ## Notifications -/

namespace Shadow

/-- The thread has the exit code of the sandbox in hand. -/
def Carries (id : ℕ) (exitCode : UInt32) : Shadow → Prop
  | .handler (.send id' code _) => id' = id ∧ code = exitCode
  | .watcher id' (.received code) => id' = id ∧ code = exitCode
  | _ => False

/-- The exit code of the sandbox is on its way through this thread. -/
def Notifies (s : Node) (id : ℕ) (exitCode : UInt32) (v : Shadow) : Prop :=
  (∃ e ∈ v.batch, s.notifyChannels e.pid = some id ∧ extractExitCode e = exitCode) ∨
    v.Carries id exitCode ∨ (v = .watcher id .waiting ∧ s.channels id = .received exitCode)

end Shadow

theorem Shadow.not_notifies {s : Node} {id : ℕ} {exitCode : UInt32} {v : Shadow}
    (hbatch : v.batch = [])
    (hcarries : ¬ v.Carries id exitCode) (hwatcher : v ≠ .watcher id .waiting) :
    ¬ v.Notifies s id exitCode := by
  rintro (⟨e, he, -⟩ | h | ⟨h, -⟩)
  · rw [hbatch] at he
    cases he
  · exact hcarries h
  · exact hwatcher h

/-- The exit code of the sandbox is on its way to the control plane. -/
def Notified (s : Node) (vs : List Shadow) (id : ℕ) (exitCode : UInt32) : Prop :=
  (∃ e ∈ s.events, s.notifyChannels e.pid = some id ∧ extractExitCode e = exitCode) ∨
    ∃ v ∈ vs, v.Notifies s id exitCode

section

variable {s s' : Node} {vs : List Shadow} {ps : List ExitEvent} {i j id : ℕ} {c : Choice}
  {v v' : Shadow} {new : List Shadow} {exitCode : UInt32}

/-- The channel for a PID stays while an exit event of the PID is on its way. -/
theorem MonitorStep.notifyChannels_of_mem (h : MonitorStep s ps i c v s' v' new) {e : ExitEvent}
    (he : e ∈ ps) : s'.notifyChannels e.pid = s.notifyChannels e.pid := by
  rcases h.notifyChannels_cases with hsame | ⟨id', pid, hpending, -, -, rfl⟩
  · rw [hsame]
  · exact Node.setChannel_of_ne (hpending e he)

/-- What happens to the exit events. -/
theorem MonitorStep.events_cases (h : MonitorStep s ps i c v s' v' new) :
    s'.events = s.events ∨
      (∃ n, v = .handler .read ∧ v' = .handler (.rlock (s.events.take n)) ∧
        s'.events = s.events.drop n) ∨
      ∃ e, s'.events = s.events ++ [e] ∧ s'.notifyChannels = s.notifyChannels ∧
        (e.status = 9 ∨ s.notifyChannels e.pid = none ∨
          ∃ id, v = .exiting id e.status ∧ (s.notifyChannels e.pid = some id → s.IsRegistered id) ∧
            s.notifyChannels e.pid ∈ [none, some id]) := by
  cases h with
  | other hview => exact .inl (congrArg View.events hview)
  | @kill j =>
    rcases s.terminate_cases j 9 with ⟨h, -⟩ | ⟨p, -, -, h⟩
    · exact .inl (by rw [h])
    · exact .inr (.inr ⟨⟨p.pid, 9⟩, by rw [h], by rw [h], .inl rfl⟩)
  | @exit j status _ howns =>
    rcases s.terminate_cases j status with ⟨h, -⟩ | ⟨p, hp, hrunning, h⟩
    · exact .inl (by rw [h])
    · have hregistered : s.notifyChannels p.pid = some j → s.IsRegistered j := by
        intro hpid q hq
        obtain rfl : p = q := Option.some.inj (hp.symm.trans hq)
        exact hpid
      exact .inr (.inr ⟨⟨p.pid, status⟩, by rw [h], by rw [h],
        .inr (.inr ⟨j, rfl, hregistered, by simpa using howns p hp hrunning⟩)⟩)
  | foreignExit hnone => exact .inr (.inr ⟨_, rfl, rfl, .inr (.inl hnone)⟩)
  | watching hstep => cases hstep <;> exact .inl rfl
  | handling hstep =>
    cases hstep with
    | read n => exact .inr (.inl ⟨n, rfl, rfl, rfl⟩)
    | _ => exact .inl rfl
  | _ => exact .inl rfl

theorem Receivers.notifies_of_ne (h : Receivers s vs) (hv : vs[i]? = some v)
    (hps : ∀ u ∈ vs, ∀ e ∈ u.batch, e ∈ ps) (hstep : MonitorStep s ps i c v s' v' new) {u : Shadow}
    (hu : u ∈ vs) (hnotifies : u.Notifies s id exitCode) : u.Notifies s' id exitCode := by
  rcases hnotifies with ⟨e, he, hpid, hcode⟩ | hcarries | ⟨hwaiting, hreceived⟩
  · exact .inl ⟨e, he, by rw [hstep.notifyChannels_of_mem (hps u hu e he), hpid], hcode⟩
  · exact .inr (.inl hcarries)
  · refine .inr (.inr ⟨hwaiting, ?_⟩)
    rcases hstep.channels_cases id with hsame | ⟨rfl, -, -⟩ | ⟨_, _, -, -, hcontra, -⟩
    · rw [hsame, hreceived]
    · simp [h.receive id (List.mem_of_getElem? hv)] at hreceived
    · simp [hreceived] at hcontra

/-- The handler passes on what it has read. -/
theorem Receivers.notified_of_handler (h : Receivers s vs) {pc pc' : Handler}
    (hv : vs[i]? = some (.handler pc)) (hs : Handled s i c pc s' pc')
    (hnotifies : (Shadow.handler pc).Notifies s id exitCode) :
    Notified s' (advance vs i (.handler pc') []) id exitCode := by
  have hself := mem_advance_self (.handler pc') [] hv
  have hbatch : ∀ e ∈ pc'.batch, s'.notifyChannels e.pid = some id → extractExitCode e = exitCode →
      Notified s' (advance vs i (.handler pc') []) id exitCode :=
    fun e he hpid hcode => .inr ⟨_, hself, .inl ⟨e, he, hpid, hcode⟩⟩
  rcases hnotifies with ⟨e, he, hpid, hcode⟩ | hcarries | ⟨heq, -⟩
  · cases hs with
    | rlock batch | send channel code batch => exact hbatch e he hpid hcode
    | skip e' batch hnone =>
      rcases List.mem_cons.1 he with rfl | hmem
      · simp [hnone] at hpid
      · exact hbatch e hmem hpid hcode
    | find e' batch channel hsome =>
      rcases List.mem_cons.1 he with rfl | hmem
      · rw [hsome] at hpid
        exact .inr ⟨_, hself, .inr (.inl ⟨Option.some.inj hpid, hcode⟩)⟩
      · exact hbatch e hmem hpid hcode
    | _ => cases he
  · cases hs with
    | send channel code batch hwaiting =>
      -- the receiver is there
      obtain ⟨rfl, rfl⟩ := hcarries
      have hmem := mem_advance_of_ne (.handler (.loop batch)) [] hv (h.waiting channel hwaiting)
        Shadow.noConfusion
      exact .inr ⟨_, hmem, .inr (.inr ⟨rfl, Function.update_self _ _ _⟩)⟩
    | _ => exact hcarries.elim
  · cases heq

/-- A receiver reports the exit code that it has, unless it is that of `SIGKILL`. -/
theorem notified_of_watcher {pc pc' : Watch} (hv : vs[i]? = some (.watcher j pc))
    (hs : Watched s j pc s' pc') (hnotifies : (Shadow.watcher j pc).Notifies s id exitCode)
    (hcode : exitCode ≠ sigkill) :
    Notified s' (advance vs i (.watcher j pc') []) id exitCode ∨ id ∈ s'.reports := by
  have hself := mem_advance_self (.watcher j pc') [] hv
  rcases hnotifies with ⟨e, he, -⟩ | hcarries | ⟨heq, hreceived⟩
  · cases he
  · cases hs with
    | killed => exact absurd hcarries.2.symm hcode
    | report code hne =>
      obtain ⟨rfl, -⟩ := hcarries
      exact .inr (List.mem_append_right _ List.mem_cons_self)
    | _ => exact hcarries.elim
  · obtain ⟨rfl, rfl⟩ := Shadow.watcher.inj heq
    cases hs with
    | received code hreceived' =>
      rw [hreceived'] at hreceived
      exact .inl (.inr ⟨_, hself, .inr (.inl ⟨rfl, Channel.received.inj hreceived⟩)⟩)

/-- A notification that goes through the thread that moves is passed on, or reported. -/
theorem Receivers.notified_of_self (h : Receivers s vs) (hv : vs[i]? = some v)
    (hps : ∀ u ∈ vs, ∀ e ∈ u.batch, e ∈ ps) (hstep : MonitorStep s ps i c v s' v' new)
    (hnotifies : v.Notifies s id exitCode) (hcode : exitCode ≠ sigkill) :
    Notified s' (advance vs i v' new) id exitCode ∨ id ∈ s'.reports := by
  have hkeep := h.notifies_of_ne hv hps hstep (List.mem_of_getElem? hv) hnotifies
  cases hstep with
  | other | kill => exact .inl (.inr ⟨_, mem_advance_self _ _ hv, hkeep⟩)
  | watching hs => exact notified_of_watcher hv hs hnotifies hcode
  | handling hs => exact .inl (h.notified_of_handler hv hs hnotifies)
  | _ => exact absurd hnotifies (Shadow.not_notifies rfl (fun h => h) Shadow.noConfusion)

/-- **A notification is passed on, or reported.** -/
theorem Receivers.forward (h : Receivers s vs) (hv : vs[i]? = some v)
    (hevents : ∀ e ∈ s.events, e ∈ ps) (hps : ∀ u ∈ vs, ∀ e ∈ u.batch, e ∈ ps)
    (hstep : MonitorStep s ps i c v s' v' new) (hnotified : Notified s vs id exitCode)
    (hcode : exitCode ≠ sigkill) :
    Notified s' (advance vs i v' new) id exitCode ∨ id ∈ s'.reports := by
  rcases hnotified with ⟨e, he, hpid, hcode'⟩ | ⟨u, hu, hnotifies⟩
  · rw [← hstep.notifyChannels_of_mem (hevents e he)] at hpid
    rcases hstep.events_cases with hsame | ⟨n, -, rfl, hdrop⟩ | ⟨e', happend, -⟩
    · exact .inl (.inl ⟨e, by rwa [hsame], hpid, hcode'⟩)
    · -- it is read, or left
      rw [← List.take_append_drop n s.events] at he
      rcases List.mem_append.1 he with he | he
      · exact .inl (.inr ⟨_, mem_advance_self _ _ hv, .inl ⟨e, he, hpid, hcode'⟩⟩)
      · exact .inl (.inl ⟨e, by rwa [hdrop], hpid, hcode'⟩)
    · exact .inl (.inl ⟨e, by rw [happend]; exact List.mem_append_left _ he, hpid, hcode'⟩)
  · by_cases hne : u = v
    · subst hne
      exact h.notified_of_self hv hps hstep hnotifies hcode
    · exact .inl (.inr ⟨u, mem_advance_of_ne _ _ hv hu hne,
        h.notifies_of_ne hv hps hstep hu hnotifies⟩)

theorem notified_handler {pc pc' : Handler} (hv : vs[i]? = some (.handler pc))
    (hs : Handled s i c pc s' pc')
    (hnotifies : (Shadow.handler pc').Notifies s' id exitCode) : Notified s vs id exitCode := by
  have hvmem := List.mem_of_getElem? hv
  have hbatch : ∀ e ∈ pc.batch, s.notifyChannels e.pid = some id → extractExitCode e = exitCode →
      Notified s vs id exitCode := fun e he hpid hcode => .inr ⟨_, hvmem, .inl ⟨e, he, hpid, hcode⟩⟩
  rcases hnotifies with ⟨e, he, hpid, hcode⟩ | hcarries | ⟨heq, -⟩
  · cases hs with
    | read n => exact .inl ⟨e, List.mem_of_mem_take he, hpid, hcode⟩
    | rlock batch | send channel code batch => exact hbatch e he hpid hcode
    | skip e' batch | find e' batch => exact hbatch e (List.mem_cons_of_mem _ he) hpid hcode
    | _ => cases he
  · cases hs with
    | find e' batch channel hsome =>
      obtain ⟨rfl, rfl⟩ := hcarries
      exact hbatch e' List.mem_cons_self hsome rfl
    | _ => exact hcarries.elim
  · cases heq

theorem notified_watcher {pc pc' : Watch} (hv : vs[i]? = some (.watcher j pc))
    (hs : Watched s j pc s' pc') (hnotifies : (Shadow.watcher j pc').Notifies s' id exitCode) :
    Notified s vs id exitCode := by
  have hvmem := List.mem_of_getElem? hv
  rcases hnotifies with ⟨e, he, -⟩ | hcarries | ⟨heq, hreceived⟩
  · cases he
  · cases hs with
    | received code hreceived =>
      obtain ⟨rfl, rfl⟩ := hcarries
      exact .inr ⟨_, hvmem, .inr (.inr ⟨rfl, hreceived⟩)⟩
    | _ => exact hcarries.elim
  · obtain ⟨rfl, rfl⟩ := Shadow.watcher.inj heq
    cases hs with
    | receive => simp at hreceived

/-- What goes through a thread that does not move was there, or is what the handler has just sent.
-/
theorem MonitorStep.notified_of_ne (hstep : MonitorStep s ps i c v s' v' new) (hv : vs[i]? = some v)
    (hps : ∀ u ∈ vs, ∀ e ∈ u.batch, e ∈ ps) {u : Shadow} (hu : u ∈ vs)
    (hnotifies : u.Notifies s' id exitCode) : Notified s vs id exitCode := by
  rcases hnotifies with ⟨e, he, hpid, hcode⟩ | hcarries | ⟨hwaiting, hreceived⟩
  · rw [hstep.notifyChannels_of_mem (hps u hu e he)] at hpid
    exact .inr ⟨u, hu, .inl ⟨e, he, hpid, hcode⟩⟩
  · exact .inr ⟨u, hu, .inr (.inl hcarries)⟩
  · rcases hstep.channels_cases id with hsame | ⟨-, -, hcontra⟩ | ⟨code, batch, rfl, -, -, hsent⟩
    · rw [hsame] at hreceived
      exact .inr ⟨u, hu, .inr (.inr ⟨hwaiting, hreceived⟩)⟩
    · simp [hreceived] at hcontra
    · rw [hreceived] at hsent
      exact .inr ⟨_, List.mem_of_getElem? hv, .inr (.inl ⟨rfl, (Channel.received.inj hsent).symm⟩)⟩

theorem extractExitCode_eq_sigkill {e : ExitEvent} :
    extractExitCode e = sigkill ↔ e.status = 9 := by
  have hkill : sigkill = 9 + 128 := rfl
  rw [hkill]
  exact UInt32.add_left_inj 128

/-- **A notification comes from an exit**, of a process that has a channel and is not killed. -/
theorem MonitorStep.backward (hstep : MonitorStep s ps i c v s' v' new) (hv : vs[i]? = some v)
    (hevents : ∀ e ∈ s.events, e ∈ ps) (hps : ∀ u ∈ vs, ∀ e ∈ u.batch, e ∈ ps)
    (hnotified : Notified s' (advance vs i v' new) id exitCode) (hcode : exitCode ≠ sigkill) :
    Notified s vs id exitCode ∨
      ∃ status, v = .exiting id status ∧ v' = .idle ∧ s.IsRegistered id ∧ status ≠ 9 := by
  rcases hnotified with ⟨e, he, hpid, rfl⟩ | ⟨u, hu, hnotifies⟩
  · have hold : e ∈ s.events → Notified s vs id (extractExitCode e) := by
      intro hmem
      rw [hstep.notifyChannels_of_mem (hevents e hmem)] at hpid
      exact .inl ⟨e, hmem, hpid, rfl⟩
    rcases hstep.events_cases with hsame | ⟨n, -, -, hdrop⟩ | ⟨e', happend, hsame, hcause⟩
    · rw [hsame] at he
      exact .inl (hold he)
    · rw [hdrop] at he
      exact .inl (hold (List.mem_of_mem_drop he))
    · rw [happend] at he
      rw [hsame] at hpid
      rcases List.mem_append.1 he with he | he
      · exact .inl (hold he)
      · obtain rfl := List.mem_singleton.1 he
        rcases hcause with hkilled | hnone | ⟨j, rfl, hregistered, hmem⟩
        · exact absurd (extractExitCode_eq_sigkill.2 hkilled) hcode
        · simp [hnone] at hpid
        · rw [hpid] at hmem hregistered
          obtain rfl : id = j := by simpa using hmem
          refine .inr ⟨e.status, rfl, ?_, hregistered rfl, mt extractExitCode_eq_sigkill.2 hcode⟩
          cases hstep with
          | other hview =>
            simp [show s'.events = s.events from congrArg View.events hview] at happend
          | kill hk => rcases hk with hk | hk <;> cases hk
          | exit => rfl
  · rcases mem_of_mem_advance hu with rfl | hsame | hnew
    · have hkeep : u = v → Notified s vs id exitCode := by
        rintro rfl
        exact hstep.notified_of_ne hv hps (List.mem_of_getElem? hv) hnotifies
      cases hstep with
      | other | kill => exact .inl (hkeep rfl)
      | watching hs => exact .inl (notified_watcher hv hs hnotifies)
      | handling hs => exact .inl (notified_handler hv hs hnotifies)
      | _ => exact absurd hnotifies (Shadow.not_notifies rfl (fun h => h) Shadow.noConfusion)
    · exact .inl (hstep.notified_of_ne hv hps hsame hnotifies)
    · rcases hstep.mem_new u hnew with rfl | ⟨_, rfl⟩ <;>
        exact absurd hnotifies (Shadow.not_notifies rfl (fun h => h) (by simp))

/-- Whoever is reported was notified, with another exit code than that of `SIGKILL`. -/
theorem MonitorStep.reports_cases (hstep : MonitorStep s ps i c v s' v' new) :
    s'.reports = s.reports ∨ ∃ id exitCode, exitCode ≠ sigkill ∧
    v = .watcher id (.received exitCode) ∧
      s'.reports = s.reports ++ [id] := by
  cases hstep with
  | other hview => exact .inl (congrArg View.reports hview)
  | kill | exit => exact .inl (s.terminate_frame ..).2.2.2
  | watching hs =>
    cases hs with
    | report code hne => exact .inr ⟨_, code, hne, rfl, rfl⟩
    | _ => exact .inl rfl
  | handling hs => cases hs <;> exact .inl rfl
  | _ => exact .inl rfl

/-! ## Failures -/

/-- `DeleteSandbox` has been called for the sandbox. -/
def Shadow.deletes (id : ℕ) : Shadow → Bool
  | .deleter id' | .creator id' .deleting => id' = id
  | _ => false

/-- The failures that are reported or on their way are those that there have been. -/
structure Reporting (failed : ℕ → Prop) (s : Node) (vs : List Shadow) : Prop where
  notified : ∀ id exitCode, Notified s vs id exitCode → exitCode ≠ sigkill → failed id
  reported : ∀ id ∈ s.reports, failed id
  complete : ∀ id, failed id → id ∈ s.reports ∨ ∃ exitCode, exitCode ≠ sigkill ∧
    Notified s vs id exitCode

theorem Reporting.step {failed failed' : ℕ → Prop} (h : Reporting failed s vs) (hR : Receivers s vs)
    (hv : vs[i]? = some v) (hevents : ∀ e ∈ s.events, e ∈ ps)
    (hps : ∀ u ∈ vs, ∀ e ∈ u.batch, e ∈ ps) (hstep : MonitorStep s ps i c v s' v' new)
    (hfailed : ∀ id, failed' id ↔ failed id ∨
      (∃ status, v = .exiting id status) ∧ v' = .idle ∧ ∀ u ∈ vs, u.deletes id = false)
    (hexit : ∀ id status, v = .exiting id status → if ∃ u ∈ vs, u.deletes id then
      status = 9 ∨ ¬ s.IsRegistered id else status ≠ 9 ∧ s.IsRegistered id) :
    Reporting failed' s' (advance vs i v' new) where
  notified id exitCode hnotified hcode := by
    rw [hfailed]
    rcases hstep.backward hv hevents hps hnotified hcode with hold |
      ⟨status, rfl, rfl, hregistered, hne⟩
    · exact .inl (h.notified id exitCode hold hcode)
    · refine .inr ⟨⟨status, rfl⟩, rfl, fun u hu => ?_⟩
      by_contra hdeletes
      have hcond := hexit id status rfl
      rw [if_pos ⟨u, hu, by simpa using hdeletes⟩] at hcond
      rcases hcond with heq | hnot
      · exact hne heq
      · exact hnot hregistered
  reported id hmem := by
    rw [hfailed]
    rcases hstep.reports_cases with hsame | ⟨j, code, hne, rfl, happend⟩
    · rw [hsame] at hmem
      exact .inl (h.reported id hmem)
    · rw [happend] at hmem
      rcases List.mem_append.1 hmem with hmem | hmem
      · exact .inl (h.reported id hmem)
      · rw [List.mem_singleton.1 hmem]
        refine .inl
          (h.notified j code (.inr ⟨_, List.mem_of_getElem? hv, .inr (.inl ⟨rfl, rfl⟩)⟩) hne)
  complete id hid := by
    have hmono : ∀ j ∈ s.reports, j ∈ s'.reports := by
      intro j hj
      rcases hstep.reports_cases with hsame | ⟨_, _, -, -, happend⟩
      · rwa [hsame]
      · rw [happend]
        exact List.mem_append_left _ hj
    rw [hfailed] at hid
    rcases hid with hid | ⟨⟨status, rfl⟩, rfl, hundeleted⟩
    · rcases h.complete id hid with hreported | ⟨code, hcode, hnotified⟩
      · exact .inl (hmono id hreported)
      · rcases hR.forward hv hevents hps hstep hnotified hcode with hnotified | hreported
        · exact .inr ⟨code, hcode, hnotified⟩
        · exact .inl hreported
    · have hnobody : ¬ ∃ u ∈ vs, u.deletes id := by
        rintro ⟨u, hu, hdeletes⟩
        simp [hundeleted u hu] at hdeletes
      have hcond := hexit id status rfl
      rw [if_neg hnobody] at hcond
      cases hstep with
      | exit hrunning =>
        rcases s.terminate_cases id status with ⟨-, hnot⟩ | ⟨p, hp, -, hterminate⟩
        · simp [hrunning] at hnot
        · refine .inr ⟨extractExitCode ⟨p.pid, status⟩,
            mt extractExitCode_eq_sigkill.1 hcond.1, .inl ?_⟩
          rw [hterminate]
          exact ⟨⟨p.pid, status⟩, List.mem_append_right _ List.mem_cons_self, hcond.2 p hp, rfl⟩

end

/-! ## Where everything has settled -/

section

variable {s : Pool Node Thread} {id : ℕ} {exitCode : UInt32}

theorem exists_thread {v : Shadow} (h : v ∈ s.threads.map Thread.shadow) :
    ∃ (i : ℕ) (t : Thread), s.threads[i]? = some t ∧ t.shadow = v := by
  obtain ⟨t, ht, rfl⟩ := List.mem_map.1 h
  obtain ⟨i, hi⟩ := List.mem_iff_getElem?.1 ht
  exact ⟨i, t, hi, rfl⟩

theorem Settled.watchStep_eq_none (h : Settled s) {pc : Watch}
    (hmem : .watcher id pc ∈ s.threads.map Thread.shadow) : watchStep s.shared id pc = none := by
  obtain ⟨i, t, ht, hshadow⟩ := exists_thread hmem
  cases t with
  | watch id' pc' =>
    obtain ⟨rfl, rfl⟩ := Shadow.watcher.inj hshadow
    simpa [Thread.step] using h i .ok _ ht rfl Choice.noConfusion
  | _ => cases hshadow

theorem Settled.handlerStep_eq_none (h : Settled s) {pc : Handler}
    (hmem : .handler pc ∈ s.threads.map Thread.shadow) :
    ∃ i, ∀ c ≠ .fails, handlerStep s.shared i c pc = none := by
  obtain ⟨i, t, ht, hshadow⟩ := exists_thread hmem
  cases t with
  | eventHandler pc' =>
    obtain rfl := Shadow.handler.inj hshadow
    refine ⟨i, fun c hc => ?_⟩
    simpa [Thread.step] using h i c _ ht rfl hc
  | _ => cases hshadow

theorem Settled.phase_ne (h : Settled s) {phase : Phase}
    (hmem : .creator id phase ∈ s.threads.map Thread.shadow) :
    (∀ pid, phase ≠ .locked pid) ∧ phase ≠ .unlocking ∧ phase ≠ .registered := by
  obtain ⟨i, t, ht, hshadow⟩ := exists_thread hmem
  cases t with
  | create id' info pc =>
    obtain ⟨rfl, rfl⟩ := Shadow.creator.inj hshadow
    have hnone : (Thread.create id' info pc).isInternal →
        createStep s.shared i id' info .ok pc = none := by
      intro hinternal
      simpa [Thread.step] using h i .ok _ ht hinternal Choice.noConfusion
    cases pc with
    | addChannel m pc =>
      cases pc with
      | lock => exact ⟨fun _ => Phase.noConfusion, Phase.noConfusion, Phase.noConfusion⟩
      | set | unlock => cases hnone rfl
    | addSandbox m | watch m => cases hnone rfl
    | failed f =>
      cases f <;> exact ⟨fun _ => Phase.noConfusion, Phase.noConfusion, Phase.noConfusion⟩
    | _ => exact ⟨fun _ => Phase.noConfusion, Phase.noConfusion, Phase.noConfusion⟩
  | _ => cases hshadow

/-- The handler is not stuck with events that it has read. -/
theorem Settled.handler_cases (h : Settled s)
    (hM : Monitored s.shared (s.threads.map Thread.shadow))
    (hR : Receivers s.shared (s.threads.map Thread.shadow)) {pc : Handler}
    (hmem : .handler pc ∈ s.threads.map Thread.shadow) :
    pc = .exited ∨ (pc = .read ∧ s.shared.events = []) := by
  obtain ⟨i, hnone⟩ := h.handlerStep_eq_none hmem
  cases pc with
  | exited => exact .inl rfl
  | read =>
    refine .inr ⟨rfl, ?_⟩
    cases hevents : s.shared.events with
    | nil => rfl
    | cons e events =>
      have hread := hnone (.batch 1) Choice.noConfusion
      simp [handlerStep, hevents] at hread
  | rlock batch =>
    exfalso
    have hrlock := hnone .ok Choice.noConfusion
    have hwriter : s.shared.monitor.writer = none := by
      -- a writer would go on
      by_contra hne
      obtain ⟨j, hj⟩ := Option.ne_none_iff_exists'.1 hne
      have hmode := (hM.guards.writer_iff j).1 hj
      unfold modeAt at hmode
      cases hv : (s.threads.map Thread.shadow)[j]? with
      | none =>
        rw [hv] at hmode
        cases hmode
      | some v =>
        rw [hv] at hmode
        have hvmem := List.mem_of_getElem? hv
        cases v with
        | creator id' phase =>
          cases phase with
          | locked pid => exact (h.phase_ne hvmem).1 pid rfl
          | unlocking => exact (h.phase_ne hvmem).2.1 rfl
          | _ => cases hmode
        | handler pc => cases pc <;> cases hmode
        | _ => cases hmode
    simp [handlerStep, RWMutex.rlock, hwriter, hR.unclaimed] at hrlock
  | loop batch =>
    exfalso
    have hloop := hnone .ok Choice.noConfusion
    cases batch with
    | nil => cases hloop
    | cons e batch =>
      simp only [handlerStep] at hloop
      split at hloop <;> cases hloop
  | send id' exitCode batch =>
    exfalso
    have hsend := hnone .ok Choice.noConfusion
    cases hchannel : s.shared.channels id' with
    | waiting => simp [handlerStep, hchannel] at hsend
    | received code => exact hM.channels_ne hmem code hchannel
    | unused =>
      obtain ⟨pid, hpid⟩ := hM.sending _ hmem id' (by simp [Shadow.sends])
      rcases hR.registered pid id' hpid hchannel with ⟨u, hu, hreg⟩ | hwatcher
      · cases u with
        | creator j phase =>
          cases phase with
          | unlocking => exact (h.phase_ne hu).2.1 rfl
          | registered => exact (h.phase_ne hu).2.2 rfl
          | _ => cases hreg
        | _ => cases hreg
      · cases h.watchStep_eq_none hwatcher

/-- **Where everything has settled, nothing is on its way.** -/
theorem Settled.not_notified (h : Settled s) (hM : Monitored s.shared (s.threads.map Thread.shadow))
    (hR : Receivers s.shared (s.threads.map Thread.shadow)) :
    ¬ Notified s.shared (s.threads.map Thread.shadow) id exitCode := by
  rintro (⟨e, he, -⟩ | ⟨v, hv, hnotifies⟩)
  · obtain ⟨pc, hmem, hpc⟩ := hR.handler
    rcases h.handler_cases hM hR hmem with hexited | ⟨-, hevents⟩
    · exact hpc hexited
    · simp [hevents] at he
  · cases v with
    | handler pc =>
      rcases h.handler_cases hM hR hv with rfl | ⟨rfl, -⟩ <;>
        exact absurd hnotifies (Shadow.not_notifies rfl (fun h => h) Shadow.noConfusion)
    | watcher id' pc =>
      have hnone := h.watchStep_eq_none hv
      rcases hnotifies with ⟨e, he, -⟩ | hcarries | ⟨heq, hreceived⟩
      · cases he
      · cases pc with
        | received code =>
          simp only [watchStep] at hnone
          split at hnone <;> cases hnone
        | _ => exact hcarries
      · obtain ⟨rfl, rfl⟩ := Shadow.watcher.inj heq
        simp [watchStep, hreceived] at hnone
    | _ => exact absurd hnotifies (Shadow.not_notifies rfl (fun h => h) Shadow.noConfusion)

end

/-! ## Runs -/

theorem shadow_deletes (t : Thread) (id : ℕ) : t.shadow.deletes id = t.deletes id := by
  cases t with
  | create id' info pc =>
    cases pc with
    | addChannel m pc => cases pc <;> rfl
    | addSandbox m =>
      show (Shadow.creator id' (if m.runtime.isContainerd then .registered else .before)).deletes
        id = false
      cases m.runtime.isContainerd <;> rfl
    | failed f => cases f <;> rfl
    | _ => rfl
  | _ => rfl

theorem exists_deletes_iff :
    (∃ v ∈ s.threads.map Thread.shadow, v.deletes id) ↔ ∃ t ∈ s.threads, t.deletes id := by
  simp only [List.mem_map, exists_exists_and_eq_and, shadow_deletes]

section

variable {s : Node} {vs : List Shadow} {v : Shadow}

theorem Receivers.start (h : Receivers s vs) (hcreator : ∀ id, v.isCreator id = false)
    (hwatcher : ∀ id, v.isWatcher id = false) : Receivers s (vs ++ [v]) := by
  have hne : ∀ id pc, .watcher id pc ∈ vs ++ [v] → .watcher id pc ∈ vs := by
    intro id pc hmem
    rcases List.mem_append.1 hmem with hmem | hmem
    · exact hmem
    · simpa [← List.mem_singleton.1 hmem, Shadow.isWatcher] using hwatcher id
  refine ⟨fun id hun => ?_, fun id => ?_, ?_, ?_, fun pid id hpid hunused => ?_, ?_, h.unclaimed⟩
  · have hold : s.created ≤ id ∨ ∃ u ∈ vs, u.isUnwatched id := by
      refine hun.imp_right ?_
      rintro ⟨u, hu, hun⟩
      rcases List.mem_append.1 hu with hu | hu
      · exact ⟨u, hu, hun⟩
      · rw [List.mem_singleton.1 hu] at hun
        exact absurd (Shadow.isCreator_of_isUnwatched hun) (by simp [hcreator])
    exact ⟨(h.unwatched id hold).1, fun pc hmem => (h.unwatched id hold).2 pc (hne id pc hmem)⟩
  · have hone := h.watchers id
    simpa [List.countP_append, hwatcher id] using hone
  · exact fun id hmem => h.receive id (hne id .receive hmem)
  · exact fun id hwaiting => List.mem_append_left _ (h.waiting id hwaiting)
  · rcases h.registered pid id hpid hunused with ⟨u, hu, hreg⟩ | hmem
    · exact .inl ⟨u, List.mem_append_left _ hu, hreg⟩
    · exact .inr (List.mem_append_left _ hmem)
  · obtain ⟨pc, hmem, hpc⟩ := h.handler
    exact ⟨pc, List.mem_append_left _ hmem, hpc⟩

theorem Reporting.start {failed failed' : ℕ → Prop} (h : Reporting failed s vs)
    (hfailed : ∀ id, failed' id ↔ failed id) (hv : ∀ id exitCode, ¬ v.Notifies s id exitCode) :
    Reporting failed' s (vs ++ [v]) := by
  have hiff : ∀ id exitCode, Notified s (vs ++ [v]) id exitCode ↔ Notified s vs id exitCode := by
    intro id exitCode
    simp only [Notified, List.mem_append, List.mem_singleton, or_and_right, exists_or,
      exists_eq_left, hv id exitCode, or_false]
  refine ⟨fun id exitCode hnotified hcode => ?_, fun id hmem => ?_, fun id hid => ?_⟩
  · rw [hfailed]
    exact h.notified id exitCode ((hiff id exitCode).1 hnotified) hcode
  · rw [hfailed]
    exact h.reported id hmem
  · simp only [hiff]
    exact h.complete id ((hfailed id).1 hid)

end

/-- What holds of the monitor in every run. -/
structure Reports (tr : List NodeStep) (s : Pool Node Thread) : Prop where
  monitored : Monitored s.shared (s.threads.map Thread.shadow)
  receivers : Receivers s.shared (s.threads.map Thread.shadow)
  reporting : Reporting (Failed · tr) s.shared (s.threads.map Thread.shadow)

theorem reports_init (h : (workerNode r).init s) : Reports [] s := by
  have hmonitored := monitored_init h
  obtain ⟨s, ts⟩ := s
  obtain ⟨⟨_, _, _, _, rfl⟩, rfl⟩ := h
  refine ⟨hmonitored, ?_, ?_⟩
  · refine ⟨fun id _ => ⟨rfl, ?_⟩, fun id => ?_, fun id _ => rfl, by simp, by simp,
      ⟨.read, ?_, Handler.noConfusion⟩, rfl⟩
    · simp [Thread.shadow]
    · simp [Thread.shadow, Shadow.isWatcher]
    · simp [Thread.shadow]
  · refine ⟨?_, List.forall_mem_nil _, by simp [Failed]⟩
    rintro id exitCode (⟨e, he, -⟩ | ⟨v, hv, hnotifies⟩)
    · cases he
    · simp only [Thread.shadow, List.map_cons, List.map_nil, List.mem_cons, List.not_mem_nil,
        or_false] at hv
      rcases hv with rfl | rfl <;>
        exact absurd hnotifies (Shadow.not_notifies rfl (fun h => h) Shadow.noConfusion)

theorem failed_cons {st : NodeStep} :
    Failed id (st :: tr) ↔ Failed id tr ∨ FailsAt id st := by
  simp only [Failed, List.exists_mem_cons_iff, or_comm]

theorem Reports.step {s₁ : Node} {i : ℕ} {c : Choice} {t t' : Thread} {new : List Thread}
    (h : Reports tr s) (ht : s.threads[i]? = some t)
    (hs : t.step s.shared i c = some (s₁, t', new)) (hG : t.ReportsExactly s c) :
    Reports (⟨s, .run i c, ⟨s₁, advance s.threads i t' new⟩⟩ :: tr)
      ⟨s₁, advance s.threads i t' new⟩ := by
  obtain ⟨horderly, hcond⟩ := hG
  have hstep := step_monitor hs horderly
  have hv : (s.threads.map Thread.shadow)[i]? = some t.shadow := by rw [List.getElem?_map, ht]; rfl
  refine ⟨monitored_step h.monitored ht hs horderly, ?_, ?_⟩
  · rw [map_advance]
    refine h.receivers.step hv hstep h.monitored fun hread => ?_
    cases t with
    | eventHandler pc =>
      obtain rfl := Shadow.handler.inj hread
      exact hcond
    | _ => cases hread
  · rw [map_advance]
    refine h.reporting.step h.receivers hv (fun e he => List.mem_append_left _ he) ?_ hstep ?_ ?_
    · intro u hu e he
      obtain ⟨t, ht, rfl⟩ := List.mem_map.1 hu
      exact List.mem_append_right _ (List.mem_flatMap.2 ⟨t, ht, he⟩)
    · intro id
      rw [failed_cons]
      refine or_congr_right ?_
      have hdeletes : (∀ u ∈ s.threads.map Thread.shadow, u.deletes id = false) ↔
          ∀ u ∈ s.threads, u.deletes id = false := by
        simp only [List.forall_mem_map, shadow_deletes]
      rw [hdeletes]
      constructor
      · rintro ⟨⟨status, hexit⟩, hundeleted⟩
        obtain rfl : t = .exit id status := Option.some.inj (ht.symm.trans hexit)
        refine ⟨⟨status, rfl⟩, ?_, hundeleted⟩
        cases Thread.step_cases hs
        rfl
      · rintro ⟨⟨status, hexit⟩, -, hundeleted⟩
        refine ⟨⟨status, ?_⟩, hundeleted⟩
        cases t with
        | exit id' status' =>
          obtain ⟨rfl, rfl⟩ := Shadow.exiting.inj hexit
          exact ht
        | _ => cases hexit
    · intro id status hexit
      simp only [exists_deletes_iff]
      cases t with
      | exit id' status' =>
        obtain ⟨rfl, rfl⟩ := Shadow.exiting.inj hexit
        exact hcond
      | _ => cases hexit

theorem reports_of_run (h : (workerNode r).Run tr s)
    (hG : ∀ st ∈ tr, StepSatisfies Thread.ReportsExactly st) :
    Reports tr s := by
  refine run_invariant (fun s => reports_init) ?_ ?_ h hG
  · rintro tr s a _ ⟨hmonitored, hreceivers, hreporting⟩ - rfl
    have hfailed : ∀ id, Failed id (⟨s, .start a, ⟨s.shared, s.threads ++ [a.thread r]⟩⟩ :: tr) ↔
        Failed id tr := by
      intro id
      rw [failed_cons]
      exact or_iff_left fun h => h
    have hnotifies : ∀ id exitCode, ¬ (a.thread r).shadow.Notifies s.shared id exitCode := by
      intro id exitCode
      cases a <;> exact Shadow.not_notifies rfl (fun h => h) Shadow.noConfusion
    constructor <;> simp only [List.map_append, List.map_cons, List.map_nil]
    · cases a <;> exact hmonitored.start rfl (fun _ => rfl) (fun _ => rfl) rfl
    · cases a <;> exact hreceivers.start (fun _ => rfl) (fun _ => rfl)
    · exact hreporting.start hfailed hnotifies
  · rintro tr s i c t s₁ t' new _ hI hG ht hs rfl
    exact hI.step ht hs (hG t ht)

/-- **Failures of sandboxes are reported exactly.** Who is reported has failed; where everything has
settled, who has failed is reported; and everything settles after so many steps. -/
theorem reportsExactly_of_run {r : Runtime} {tr : List NodeStep} {s : Pool Node Thread}
    (h : (workerNode r).Run tr s) (hG : ∀ st ∈ tr, StepSatisfies Thread.ReportsExactly st) :
    (∀ id ∈ s.shared.reports, Failed id tr) ∧
    (Settled s → ∀ id, Failed id tr → id ∈ s.shared.reports) ∧
      ∀ more s', ((workerNode r).startingAt s).Run more s' → (∀ st ∈ more, Internal st) →
        more.length ≤ rank s := by
  obtain ⟨hmonitored, hreceivers, hreporting⟩ := reports_of_run h hG
  refine ⟨hreporting.reported, fun hsettled id hid => ?_, fun more s' hrun hinternal => ?_⟩
  · rcases hreporting.complete id hid with hreported | ⟨exitCode, -, hnotified⟩
    · exact hreported
    · exact absurd hnotified (hsettled.not_notified hmonitored hreceivers)
  · exact (Nat.le_add_right _ _).trans (length_le_rank hrun hinternal)

instance (s : Node) (id : ℕ) : Decidable (s.IsRegistered id) :=
  inferInstanceAs (Decidable (∀ p ∈ s.processes.lookup id, _))

instance (s : Pool Node Thread) (c : Choice) : DecidablePred (Thread.ReportsExactly s c) := fun t =>
  have : Decidable (match t with
    | .exit id status =>
      if ∃ u ∈ s.threads, u.deletes id then status = 9 ∨ ¬ s.shared.IsRegistered id
      else status ≠ 9 ∧ s.shared.IsRegistered id
    | .eventHandler .read => c ≠ .fails
    | _ => True) := by
    split <;> infer_instance
  inferInstanceAs (Decidable (_ ∧ _))

/-- The process of one sandbox exits, and another sandbox is deleted: the first one is reported. -/
theorem reportsExactly_of_failed : ∃ tr s, (workerNode .containerd).Run tr s ∧
    (∀ st ∈ tr, StepSatisfies Thread.ReportsExactly st) ∧ Settled s ∧ s.shared.reports = [0] ∧
    ∀ id, Failed id tr ↔ id = 0 := by
  obtain ⟨tr, s, hrun, hexactly, hrank, hreports⟩ : ∃ tr s, (workerNode .containerd).Run tr s ∧
      (∀ st ∈ tr, StepSatisfies Thread.ReportsExactly st) ∧ rank s = 0 ∧ s.shared.reports = [0] :=
    Machine.exists_run_of_play (containerdCreation 2 "f" "10.0.0.2" 100 2000 ++ makes 3 [.ok] ++
      .start (.exit 0 256) :: makes 4 [.ok] ++ containerdCreation 5 "g" "10.0.0.3" 101 2001 ++
        makes 6 [.ok] ++
      .start (.deleteSandbox 1) :: makes 7 [.ok, .ok, .ok, .ok, .ok, .ok, .ok] ++
      makes 0 [.batch 2, .ok, .ok, .ok, .ok, .ok, .ok] ++ makes 3 [.ok, .ok] ++ makes 6 [.ok, .ok])
      (started_init _) (by decide +kernel)
  obtain ⟨hsound, hcomplete, -⟩ := reportsExactly_of_run hrun hexactly
  have hsettled := settled_of_rank hrank
  refine ⟨tr, s, hrun, hexactly, hsettled, hreports, fun id => ⟨fun hid => ?_, ?_⟩⟩
  · simpa [hreports] using hcomplete hsettled id hid
  · rintro rfl
    exact hsound 0 (by simp [hreports])

/-- The kernel kills the process of a sandbox, and nobody is told. -/
theorem exists_unreported : ∃ tr s, (workerNode .containerd).Run tr s ∧ Settled s ∧ Failed 0 tr ∧
    s.shared.reports = [] := by
  obtain ⟨tr, s, hrun, hrank, hreports, ⟨st, hst, hevent, hexit, hundeleted⟩⟩ :
      ∃ tr s, (workerNode .containerd).Run tr s ∧ rank s = 0 ∧ s.shared.reports = [] ∧
      ∃ st ∈ tr, st.event = .run 4 .ok ∧ st.src.threads[4]? = some (.exit 0 9) ∧
        ∀ u ∈ st.src.threads, u.deletes 0 = false :=
    Machine.exists_run_of_play (containerdCreation 2 "f" "10.0.0.2" 100 2000 ++ makes 3 [.ok] ++
      .start (.exit 0 9) :: makes 4 [.ok] ++ makes 0 [.batch 1, .ok, .ok, .ok, .ok] ++
        makes 3 [.ok, .ok])
      (started_init _) (by decide +kernel)
  refine ⟨tr, s, hrun, settled_of_rank hrank, ⟨st, hst, ?_⟩, hreports⟩
  unfold FailsAt
  rw [hevent]
  exact ⟨⟨9, hexit⟩, hundeleted⟩

end Dirigent.WorkerNode
