import Dirigent.WorkerNode.Inventory

/-!
# Failures of the containerd runtime

`CreateSandbox` of containerd makes a container, a task, an allocation of the CNI and a process, one
after the other, and returns an error as soon as one of the calls fails, without undoing the earlier
ones. `DeleteSandbox` removes the sandbox from the map and unassigns its port first; when one of the
calls after that fails, nobody can find the sandbox any more.

**What a failed `CreateSandbox` leaves.** At each statement the call has made so many things
(`Create.acquired`), and while it has not added its sandbox nobody else can remove them: whoever
removes something of a sandbox has found the sandbox in the map (`Lives.early`). The port is
assigned after all calls that can fail.

* **`leavesNothing_iff`** — a failed `CreateSandbox` leaves nothing of its own if and only if the
  image could not be fetched or the container not be created; and a sandbox whose `DeleteSandbox`
  has failed is not registered.
-/

namespace Dirigent.WorkerNode

open Threads

/-! ## The statement -/

/-- The steps of thread `i` have not changed the ports. -/
def PortsKept (tr : List NodeStep) (i : ℕ) : Prop :=
  ∀ st ∈ tr, ∀ c, st.event = .run i c → st.dst.shared.portsInUse = st.src.shared.portsInUse

/-- The `CreateSandbox` of thread `i` has left nothing of its own. -/
structure LeavesNothing (tr : List NodeStep) (s : Pool Node Thread) (i id : ℕ) : Prop where
  container : id ∉ s.shared.containers
  task : id ∉ s.shared.tasks
  cni : id ∉ s.shared.cni
  sandbox : s.shared.sandboxes.lookup id = none
  port : PortsKept tr i

/-! ## What a call has acquired -/

/-- The statements of the containerd runtime. -/
def Create.isContainerd : Create → Bool
  | .getImage | .createContainer | .newTask | .wait | .cniSetup | .taskStart _
  | .assignPort (.containerd _) _
  | .succeeded => true
  | .addChannel m _ | .addSandbox m | .watch m => m.runtime.isContainerd
  | .failed .imageFetch | .failed .containerCreation | .failed .taskCreation | .failed .wait
  | .failed .cniSetup | .failed .taskStart => true
  | _ => false

/-- Whether a `CreateSandbox` has made a container, a task and an allocation of the CNI, until it
has started the task. -/
def Create.acquired : Create → Option (Bool × Bool × Bool)
  | .getImage | .createContainer | .failed .imageFetch | .failed .containerCreation =>
    some (false, false, false)
  | .newTask | .failed .taskCreation => some (true, false, false)
  | .wait | .cniSetup | .failed .wait | .failed .cniSetup => some (true, true, false)
  | .taskStart _ | .failed .taskStart => some (true, true, true)
  | _ => none

/-- Whether the sandbox has a container, a task and an allocation of the CNI. -/
def Node.acquired (s : Node) (id : ℕ) : Bool × Bool × Bool :=
  (id ∈ s.containers, id ∈ s.tasks, id ∈ s.cni)

section

variable {s s' : Node} {i id j : ℕ} {info : ServiceInfo} {c : Choice} {t t' : Thread}
  {new : List Thread}

variable {pc pc' : Create} {a : Bool × Bool × Bool}

theorem Creates.isContainerd (h : Creates s i id info c pc s' pc' new) (hpc : pc.isContainerd) :
    pc'.isContainerd := by
  cases h with
  | fails _ _ hf => cases pc <;> cases hf <;> rfl
  | unlockContainerd m hr | addContainerd m hr => exact hr
  | unlockFirecracker m hr | addFirecracker m hr | lock m | set m => exact hpc
  | watchFirecracker m hr =>
    rw [show (Create.watch m).isContainerd = m.runtime.isContainerd from rfl, hr] at hpc
    cases hpc
  | _ => first | rfl | cases hpc

/-- **A statement of `CreateSandbox` acquires what it says.** -/
theorem Creates.acquired (h : Creates s i id info c pc s' pc' new)
    (hpc : ∀ a, pc.acquired = some a → s.acquired id = a) (ha : pc'.acquired = some a) :
    s'.acquired id = a ∧ pc.acquired.isSome ∧ s'.portsInUse = s.portsInUse := by
  have hmem : ∀ {x y z : Bool}, pc.acquired = some (x, y, z) →
      decide (id ∈ s.containers) = x ∧ decide (id ∈ s.tasks) = y ∧ decide (id ∈ s.cni) = z := by
    intro x y z hxyz
    simpa [Node.acquired] using hpc _ hxyz
  cases h with
  | fails _ _ hf =>
    cases pc <;> cases hf <;> exact ⟨(hpc _ rfl).trans (Option.some.inj ha), rfl, rfl⟩
  | hasImage | getImage | wait => exact ⟨(hpc _ rfl).trans (Option.some.inj ha), rfl, rfl⟩
  | createContainer =>
    obtain ⟨-, htask, hcni⟩ := hmem rfl
    refine ⟨?_, rfl, rfl⟩
    rw [← Option.some.inj ha]
    simp [Node.acquired, htask, hcni]
  | newTask =>
    obtain ⟨hcontainer, -, hcni⟩ := hmem rfl
    refine ⟨?_, rfl, rfl⟩
    rw [← Option.some.inj ha]
    simp [Node.acquired, hcontainer, hcni]
  | cniSetup ip =>
    obtain ⟨hcontainer, htask, -⟩ := hmem rfl
    refine ⟨?_, rfl, rfl⟩
    rw [← Option.some.inj ha]
    simp [Node.acquired, hcontainer, htask]
  | _ => cases ha

/-- A `DeleteSandbox` releases something of a sandbox that it has removed. -/
theorem Deletes.acquired {pc pc' : Delete} (h : Deletes s id c pc s' pc') (j : ℕ) :
    s'.acquired j = s.acquired j ∨ j = id ∧ pc.role.hasRemoved := by
  have hterminate : (s.terminate id 9).acquired j = s.acquired j := by
    unfold Node.terminate
    split <;> rfl
  cases h with
  | removeCNI | deleteTask | deleteContainer =>
    by_cases hj : j = id
    · exact .inr ⟨hj, rfl⟩
    · exact .inl (by simp [Node.acquired, hj])
  | kill | stopVM network => exact .inl hterminate
  | _ => exact .inl rfl

theorem Creates.acquired_of_ne (h : Creates s i id info c pc s' pc' new) (hj : j ≠ id) :
    s'.acquired j = s.acquired j := by
  cases h with
  | createContainer | newTask | cniSetup => simp [Node.acquired, hj]
  | delete hstep =>
    rcases hstep.acquired j with hsame | ⟨heq, -⟩
    · exact hsame
    · exact absurd heq hj
  | _ => rfl

theorem Create.isCreating_of_acquired (h : pc.acquired = some a) :
    pc.role.isCreating := by
  cases pc with
  | failed f => cases f <;> first | rfl | cases h
  | _ => first | rfl | cases h

/-- Who changes what there is of a sandbox: its `CreateSandbox`, and who has removed it from the
map. -/
theorem acquired_step (hs : t.step s i c = some (s', t', new)) (id : ℕ) :
    s'.acquired id = s.acquired id ∨ t.isCreate id ∨ (t.role id).hasRemoved := by
  cases Thread.step_cases hs with
  | @create j info pc _ _ _ hstep =>
    by_cases hj : id = j
    · exact .inr (.inl (by simp [Thread.isCreate, hj]))
    · exact .inl (hstep.acquired_of_ne hj)
  | @delete j pc _ _ hstep =>
    rcases hstep.acquired id with hsame | ⟨rfl, hremoved⟩
    · exact .inl hsame
    · exact .inr (.inr (by simpa [Thread.role] using hremoved))
  | watch hstep | eventHandler hstep => cases hstep <;> exact .inl rfl
  | @exit j status =>
    refine .inl ?_
    unfold Node.terminate
    split <;> rfl
  | _ => exact .inl rfl

end

/-! ## Runs -/

/-- What there is of the sandboxes that are being created, or whose creation has failed. -/
structure Accounts (tr : List NodeStep) (s : Pool Node Thread) : Prop where
  lives : ∀ id, Lives s id
  runtime : ∀ r info, .createSandbox r info ∈ s.threads → r = .containerd
  containerd : ∀ id info pc, .create id info pc ∈ s.threads → pc.isContainerd
  fresh : ∀ id, s.shared.created ≤ id → s.shared.acquired id = (false, false, false)
  acquired : ∀ id info pc, .create id info pc ∈ s.threads → ∀ a, pc.acquired = some a →
    s.shared.acquired id = a
  bounded : ∀ st ∈ tr, ∀ i c, st.event = .run i c → i < s.threads.length
  ports : ∀ (i : ℕ) (t : Thread), s.threads[i]? = some t →
    (∃ r info, t = .createSandbox r info) ∨ (∃ id info pc, t = .create id info pc ∧
      pc.acquired.isSome) →
    PortsKept tr i

section

variable {tr : List NodeStep} {s : Pool Node Thread} {s₁ : Node} {i id : ℕ} {c : Choice}
  {t t' : Thread} {new : List Thread}

theorem accounts_init (h : (workerNode .containerd).init s) : Accounts [] s := by
  have hlives := lives_of_run (.init h)
  obtain ⟨s, ts⟩ := s
  obtain ⟨⟨_, _, _, _, rfl⟩, rfl⟩ := h
  refine ⟨hlives, by simp, by simp, fun _ _ => rfl, by simp, by simp, ?_⟩
  intro i t ht hcreates st hst
  cases hst

theorem Accounts.start (h : Accounts tr s) (a : Call) :
    Accounts (⟨s, .start a, ⟨s.shared, s.threads ++ [a.thread .containerd]⟩⟩ :: tr)
      ⟨s.shared, s.threads ++ [a.thread .containerd]⟩ := by
  have hcreate : ∀ {id info pc}, .create id info pc ∈ s.threads ++ [a.thread .containerd] →
      .create id info pc ∈ s.threads := by
    intro id info pc hmem
    rcases List.mem_append.1 hmem with hmem | hmem
    · exact hmem
    · cases a <;> cases List.mem_singleton.1 hmem
  have hkept : ∀ {i}, PortsKept tr i →
      PortsKept (⟨s, .start a, ⟨s.shared, s.threads ++ [a.thread .containerd]⟩⟩ :: tr) i := by
    intro i hkept st hst c hevent
    rcases List.mem_cons.1 hst with rfl | hst
    · cases hevent
    · exact hkept st hst c hevent
  refine ⟨fun id => lives_start (h.lives id) .containerd a, ?_, ?_, h.fresh, ?_, ?_, ?_⟩
  · intro r info hmem
    rcases List.mem_append.1 hmem with hmem | hmem
    · exact h.runtime r info hmem
    · cases a <;> cases List.mem_singleton.1 hmem
      rfl
  · exact fun id info pc hmem => h.containerd id info pc (hcreate hmem)
  · exact fun id info pc hmem => h.acquired id info pc (hcreate hmem)
  · intro st hst i c hevent
    rcases List.mem_cons.1 hst with rfl | hst
    · cases hevent
    · have := h.bounded st hst i c hevent
      show i < (s.threads ++ [a.thread .containerd]).length
      rw [List.length_append]
      omega
  · intro i t ht hcreates
    rcases lt_trichotomy i s.threads.length with hlt | rfl | hgt
    · rw [List.getElem?_append_left hlt] at ht
      exact hkept (h.ports i t ht hcreates)
    · -- the new thread has not made a step
      refine hkept fun st hst c hevent => ?_
      exact absurd (h.bounded st hst _ c hevent) (lt_irrefl _)
    · rw [List.getElem?_eq_none (by simpa using hgt)] at ht
      cases ht

theorem Accounts.acquired_of_ne (h : Accounts tr s) {info : ServiceInfo} {pc : Create}
    {a : Bool × Bool × Bool} (hmem : .create id info pc ∈ s.threads) (ha : pc.acquired = some a)
    (ht : s.threads[i]? = some t) (hs : t.step s.shared i c = some (s₁, t', new))
    (hne : t ≠ .create id info pc) : s₁.acquired id = a := by
  have htmem := List.mem_of_getElem? ht
  have hcreating : ((Thread.create id info pc).role id).isCreating := by
    simpa [Thread.role] using Create.isCreating_of_acquired ha
  rw [← h.acquired id info pc hmem a ha]
  rcases acquired_step hs id with hsame | hcreate | hremoved
  · exact hsame
  · exact absurd ((h.lives id).eq_of_isCreate htmem hcreate hmem (by simp [Thread.isCreate])) hne
  · have hzero := ((h.lives id).early (.inr (countRole_pos hmem hcreating))).2
    have hpos :=
      countRole_pos (p := Role.hasObtained) htmem (Role.hasObtained_of_hasRemoved _ hremoved)
    omega

theorem created_le_step {s : Node} (hs : t.step s i c = some (s₁, t', new)) :
    s.created ≤ s₁.created := by
  cases Thread.step_cases hs with
  | begin => exact Nat.le_succ _
  | create hstep | delete hstep => exact hstep.other.1.ge
  | watch hstep | eventHandler hstep => exact hstep.frame.2.1.ge
  | @exit j status => exact (s.terminate_created j status).ge
  | _ => exact le_rfl

theorem Accounts.step (h : Accounts tr s) (ht : s.threads[i]? = some t)
    (hs : t.step s.shared i c = some (s₁, t', new)) :
    Accounts (⟨s, .run i c, ⟨s₁, advance s.threads i t' new⟩⟩ :: tr)
      ⟨s₁, advance s.threads i t' new⟩ := by
  have htmem := List.mem_of_getElem? ht
  have hlength : s.threads.length ≤ (advance s.threads i t' new).length := by
    simp [advance]
  refine ⟨fun id => lives_step (h.lives id) ht hs, ?_, ?_, ?_, ?_, ?_, ?_⟩
  · intro r info hmem
    rcases mem_of_mem_advance hmem with rfl | hsame | hnew
    · cases Thread.step_cases hs
    · exact h.runtime r info hsame
    · rcases step_new hs _ hnew with heq | ⟨_, _, _, -, heq⟩ <;> cases heq
  · intro id info pc hmem
    rcases create_of_mem_advance hs hmem with hold | rfl
    · exact h.containerd id info pc hold
    · rcases create_of_step hs with ⟨r, rfl, rfl, -⟩ | ⟨pc₀, rfl, hstep⟩
      · rw [h.runtime r info htmem]
        rfl
      · exact hstep.isContainerd (h.containerd id info pc₀ htmem)
  · intro id hle
    have hold : s.shared.created ≤ id := (created_le_step hs).trans hle
    rw [← h.fresh id hold]
    rcases acquired_step hs id with hsame | hcreate | hremoved
    · exact hsame
    · have hcreators := (h.lives id).creators
      have hpos : 0 < s.threads.countP (·.isCreate id) := List.countP_pos_iff.2 ⟨t, htmem, hcreate⟩
      rw [if_pos hold] at hcreators
      omega
    · have hzero := ((h.lives id).early (.inl hold)).2
      have hpos :=
        countRole_pos (p := Role.hasObtained) htmem (Role.hasObtained_of_hasRemoved _ hremoved)
      omega
  · intro id info pc hmem a ha
    rcases mem_advance ht hmem with rfl | ⟨j, hji, hj⟩ | hnew
    · rcases create_of_step hs with ⟨r, rfl, rfl, rfl⟩ | ⟨pc₀, rfl, hstep⟩
      · obtain rfl := h.runtime r info htmem
        rw [← Option.some.inj ha, ← h.fresh _ le_rfl]
        cases hs
        rfl
      · exact (hstep.acquired (h.acquired id info pc₀ htmem) ha).1
    · refine h.acquired_of_ne (List.mem_of_getElem? hj) ha ht hs ?_
      rintro rfl
      -- there is one `CreateSandbox` of the sandbox
      have hself : (Thread.create id info pc).isCreate id := by simp [Thread.isCreate]
      have hone : s.threads.countP (·.isCreate id) ≤ 1 := by
        have := (h.lives id).creators
        omega
      have hfalse := eq_false_of_countP_le_one hone ht hself hj hji
      rw [hself] at hfalse
      cases hfalse
    · rcases step_new hs _ hnew with heq | ⟨_, _, _, -, heq⟩ <;> cases heq
  · intro st hst j c' hevent
    show j < (advance s.threads i t' new).length
    rcases List.mem_cons.1 hst with rfl | hst
    · cases hevent
      have := (List.getElem?_eq_some_iff.1 ht).1
      omega
    · have := h.bounded st hst j c' hevent
      omega
  · intro j u hj hcreates
    have hcons : PortsKept tr j → (j = i → s₁.portsInUse = s.shared.portsInUse) →
        PortsKept (⟨s, .run i c, ⟨s₁, advance s.threads i t' new⟩⟩ :: tr) j := by
      intro hkept hports st hst c' hevent
      rcases List.mem_cons.1 hst with rfl | hst
      · cases hevent
        exact hports rfl
      · exact hkept st hst c' hevent
    rcases getElem?_advance ht hj with ⟨rfl, rfl⟩ | ⟨hji, hju⟩ | ⟨-, hnew⟩
    · rcases hcreates with ⟨r, info, rfl⟩ | ⟨id, info, pc, rfl, hsome⟩
      · cases Thread.step_cases hs
      · obtain ⟨a, ha⟩ := Option.isSome_iff_exists.1 hsome
        rcases create_of_step hs with ⟨r, -, rfl, -⟩ | ⟨pc₀, rfl, hstep⟩
        · refine hcons (h.ports j _ ht (.inl ⟨r, info, rfl⟩)) fun _ => ?_
          cases hs
          rfl
        · obtain ⟨-, hsome₀, hports⟩ := hstep.acquired (h.acquired id info pc₀ htmem) ha
          exact hcons (h.ports j _ ht (.inr ⟨id, info, pc₀, rfl, hsome₀⟩)) fun _ => hports
    · exact hcons (h.ports j u hju hcreates) fun heq => absurd heq hji
    · rcases step_new hs _ hnew with rfl | ⟨_, _, _, -, rfl⟩ <;>
        rcases hcreates with ⟨_, _, heq⟩ | ⟨_, _, _, heq, -⟩ <;> cases heq

theorem accounts_of_run (h : (workerNode .containerd).Run tr s) : Accounts tr s := by
  refine run_invariant (G := fun _ => True) (fun s => accounts_init) ?_ ?_ h fun _ _ => trivial
  · intro tr s a s' hI _ hs'
    subst hs'
    exact hI.start a
  · intro tr s i c t s₁ t' new s' hI _ ht hs hs'
    subst hs'
    exact hI.step ht hs

/-- **What failures of the containerd runtime leave.** -/
theorem leavesNothing_iff (h : (workerNode .containerd).Run tr s) :
    (∀ i id info f, s.threads[i]? = some (.create id info (.failed f)) →
      (LeavesNothing tr s i id ↔ f = .imageFetch ∨ f = .containerCreation)) ∧
    ∀ id f, .delete id (.returned (.failed f)) ∈ s.threads →
    s.shared.sandboxes.lookup id = none := by
  have hA := accounts_of_run h
  constructor
  · intro i id info f ht
    have hmem := List.mem_of_getElem? ht
    have hcontainerd := hA.containerd id info _ hmem
    obtain ⟨a, ha⟩ : ∃ a, (Create.failed f).acquired = some a := by
      cases f <;> first | exact ⟨_, rfl⟩ | cases hcontainerd
    have hacquired := hA.acquired id info _ hmem a ha
    have hcreating : ((Thread.create id info (.failed f)).role id).isCreating := by
      simpa [Thread.role] using Create.isCreating_of_acquired ha
    constructor
    · rintro ⟨hcontainer, -, -, -, -⟩
      have hnone : a.1 = false := by
        rw [← hacquired]
        exact decide_eq_false hcontainer
      cases f with
      | imageFetch => exact .inl rfl
      | containerCreation => exact .inr rfl
      | _ => cases ha <;> cases hnone
    · intro hf
      obtain rfl : a = (false, false, false) := by
        rcases hf with rfl | rfl <;> exact (Option.some.inj ha).symm
      simp only [Node.acquired, Prod.mk.injEq, decide_eq_false_iff_not] at hacquired
      obtain ⟨hcontainer, htask, hcni⟩ := hacquired
      refine ⟨hcontainer, htask, hcni,
        ((hA.lives id).early (.inr (countRole_pos hmem hcreating))).1, ?_⟩
      exact hA.ports i _ ht (.inr ⟨id, info, _, rfl, by rw [ha]; rfl⟩)
  · intro id f hmem
    by_contra hne
    have hremoved : ((Thread.delete id (.returned (.failed f))).role id).hasRemoved := by
      simp [Thread.role, Delete.role, Role.hasRemoved]
    have hzero := (hA.lives id).removed hne
    have hpos := countRole_pos hmem hremoved
    omega

end

/-- The container of one sandbox cannot be created, and another sandbox cannot be killed. -/
theorem leavesNothing_of_failed : ∃ tr s, (workerNode .containerd).Run tr s ∧
    LeavesNothing tr s 2 0 ∧ .delete 1 (.returned (.failed .kill)) ∈ s.threads ∧
    s.shared.sandboxes.lookup 1 = none := by
  obtain ⟨tr, s, hrun, hcreate, hdelete⟩ : ∃ tr s, (workerNode .containerd).Run tr s ∧
      s.threads[2]? = some (.create 0 ⟨"f", "image", 80⟩ (.failed .containerCreation)) ∧
      .delete 1 (.returned (.failed .kill)) ∈ s.threads :=
    Machine.exists_run_of_play (.start (.createSandbox ⟨"f", "image", 80⟩) ::
      makes 2 [.ok, .ok, .fails] ++
      containerdCreation 3 "g" "10.0.0.3" 101 2001 ++ .start (.deleteSandbox 1) ::
      makes 5 [.ok, .ok, .ok, .ok, .fails]) (started_init _) (by decide +kernel)
  obtain ⟨hcreates, hdeletes⟩ := leavesNothing_iff hrun
  exact ⟨tr, s, hrun, (hcreates 2 0 _ _ hcreate).2 (.inr rfl), hdelete, hdeletes 1 .kill hdelete⟩

/-- The task of one sandbox cannot be created, and its container stays; another sandbox cannot be
killed, and is not registered any more, nor is its port assigned. -/
theorem exists_left_behind : ∃ tr s, (workerNode .containerd).Run tr s ∧
    s.threads[2]? = some (.create 0 ⟨"f", "image", 80⟩ (.failed .taskCreation)) ∧
    0 ∈ s.shared.containers ∧
    .delete 1 (.returned (.failed .kill)) ∈ s.threads ∧ s.shared.sandboxes.lookup 1 = none ∧
    s.shared.portsInUse = ∅ ∧ s.shared.isRunning 1 :=
  Machine.exists_run_of_play (.start (.createSandbox ⟨"f", "image", 80⟩) ::
    makes 2 [.ok, .ok, .ok, .fails] ++ containerdCreation 3 "g" "10.0.0.3" 101 2001 ++
    .start (.deleteSandbox 1) :: makes 5 [.ok, .ok, .ok, .ok, .fails]) (started_init _)
      (by decide +kernel)

end Dirigent.WorkerNode
