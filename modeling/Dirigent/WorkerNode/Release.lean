import Dirigent.WorkerNode.Lifecycle

/-!
# Sandboxes are released once

`SandboxManager.DeleteSandbox` looks the sandbox up and removes it from the map, in two statements.
Any number of calls can find a sandbox before one of them removes it, and each of them then releases
its host port and its network, which may by then belong to another sandbox.

If a call finds a sandbox only while no other call is between the two statements, then one call at
most obtains its metadata: while the sandbox is registered nobody has removed it (`Lives`), so a
call that finds it is the first one. Whoever releases something has obtained the metadata, or is the
`CreateSandbox` that has failed before it added the sandbox, in which case nobody obtains the
metadata at all.

* **`releasedOnce_of_run`** — then each sandbox is released once.
-/

namespace Dirigent.WorkerNode

inductive Resource
  | hostPort
  | network
  deriving DecidableEq, Repr

/-- The next statement is `UnassignPort`, or `GiveUpNetwork`. -/
def Delete.releases : Resource → Delete → Bool
  | .hostPort, .unassignPort _ => true
  | .network, .giveUpNetwork _ => true
  | _, _ => false

/-- The call is past that statement. -/
def Delete.hasReleased : Resource → Delete → Bool
  | .hostPort, .get | .hostPort, .remove _ | .hostPort, .unassignPort _
  | .hostPort, .returned .notFound => false
  | .hostPort, _ => true
  | .network, .returned .succeeded => true
  | .network, _ => false

def Create.releases : Resource → Create → Bool
  | .hostPort, .releasePort _ => true
  | .network, .giveUpNetwork _ _ => true
  | .network, .releaseNetwork _ _ => true
  | q, .delete pc => pc.releases q
  | _, _ => false

def Create.hasReleased : Resource → Create → Bool
  | _, .failed .pid => true
  | .network, .releasePort _ => true
  | .network, .failed (.vm _) => true
  | q, .delete pc => pc.hasReleased q
  | q, .failed (.notReady d) => (Delete.returned d).hasReleased q
  | _, _ => false

namespace Thread

/-- The next statement releases the resource of the sandbox. -/
def releases (q : Resource) (id : ℕ) : Thread → Bool
  | .create id' _ pc => id' = id && pc.releases q
  | .delete id' pc => id' = id && pc.releases q
  | _ => false

def hasReleased (q : Resource) (id : ℕ) : Thread → Bool
  | .create id' _ pc => id' = id && pc.hasReleased q
  | .delete id' pc => id' = id && pc.hasReleased q
  | _ => false

end Thread

/-- The step releases the resource of the sandbox. -/
def releases (q : Resource) (id : ℕ) (st : NodeStep) : Bool :=
  match st.event with
  | .run i _ => st.src.threads[i]?.any (·.releases q id)
  | .start _ => false

/-- **Each sandbox is released once.** One call at most has obtained its metadata, and its host port
and its network have been given back at most once. -/
structure ReleasedOnce (tr : List NodeStep) (s : Pool Node Thread) (id : ℕ) : Prop where
  obtained : countRole Role.hasObtained id s.threads ≤ 1
  released : ∀ q, tr.countP (releases q id) ≤ 1

/-- A call that finds a sandbox finds it while no other call is about to remove it. -/
def NoRace (st : NodeStep) : Prop :=
  match st.event with
  | .run i _ => ∀ id ∈ st.src.shared.sandboxes.keys, st.src.threads[i]?.any (·.looksUp id) →
      countRole Role.isRemoving id st.src.threads = 0
  | .start _ => True

instance : DecidablePred NoRace := fun
  | ⟨s, .run i _, _⟩ => inferInstanceAs (Decidable (∀ id ∈ s.shared.sandboxes.keys,
      s.threads[i]?.any (·.looksUp id) → countRole Role.isRemoving id s.threads = 0))
  | ⟨_, .start _, _⟩ => .isTrue trivial

/-! ## Who has obtained the metadata -/

theorem countRole_hasObtained (id : ℕ) (ts : List Thread) : countRole Role.hasObtained id ts =
    countRole Role.isRemoving id ts + countRole Role.hasRemoved id ts := by
  refine countRole_add (fun r => ?_) id ts
  cases r <;> rfl

section

variable {s : Pool Node Thread} {s' : Node} {i id : ℕ} {c : Choice} {t t' : Thread}
  {new : List Thread}

theorem obtained_step (h : countRole Role.hasObtained id s.threads ≤ 1) (hlives : Lives s id)
    (ht : s.threads[i]? = some t) (hstep : t.step s.shared i c = some (s', t', new))
    (hrace : t.looksUp id → s.shared.sandboxes.lookup id ≠ none →
      countRole Role.isRemoving id s.threads = 0) :
    countRole Role.hasObtained id (Threads.advance s.threads i t' new) ≤ 1 := by
  have hobtained := countRole_advance Role.hasObtained id rfl ht hstep
  have hlife := step_life hstep id
  generalize t.role id = r at hlife hobtained
  generalize t'.role id = r' at hlife hobtained
  cases hlife with
  | keep => omega
  | begin | add => simpa [Role.hasObtained] using hobtained.trans_le h
  | find m hlooksUp hm _ hr =>
    have hne : s.shared.sandboxes.lookup id ≠ none := by simp [hm]
    have hzero : countRole Role.hasObtained id s.threads = 0 := by
      rw [countRole_hasObtained, hrace hlooksUp hne, hlives.removed hne]
    rcases hr with rfl | rfl <;> simp [Role.hasObtained, hzero] at hobtained <;> omega
  | remove => simp only [Role.hasObtained] at hobtained; omega

/-! ## What has been released -/

theorem Deletes.hasReleased {s s' : Node} {pc pc' : Delete} (h : Deletes s id c pc s' pc')
    (q : Resource) : (pc.hasReleased q → pc'.hasReleased q) ∧
      (pc.releases q → pc'.hasReleased q ∧ pc.hasReleased q = false) := by
  cases h with
  | fails _ _ hf => cases q <;> cases pc <;> cases hf <;> simp [Delete.hasReleased, Delete.releases]
  | _ => cases q <;> simp [Delete.hasReleased, Delete.releases]

theorem Creates.hasReleased {s s' : Node} {info : ServiceInfo} {pc pc' : Create}
    (h : Creates s i id info c pc s' pc' new) (q : Resource) :
    (pc.hasReleased q → pc'.hasReleased q) ∧
      (pc.releases q → pc'.hasReleased q ∧ pc.hasReleased q = false) := by
  cases h with
  | delete hstep => simpa [Create.hasReleased, Create.releases] using hstep.hasReleased q
  | fails _ _ hf => cases q <;> cases pc <;> cases hf <;> exact ⟨nofun, nofun⟩
  | _ => cases q <;> simp [Create.hasReleased, Create.releases, Delete.releases]

theorem step_hasReleased (h : t.step s.shared i c = some (s', t', new)) (q : Resource) (id : ℕ) :
    (t.hasReleased q id → t'.hasReleased q id) ∧
      (t.releases q id → t'.hasReleased q id ∧ t.hasReleased q id = false) := by
  cases Thread.step_cases h with
  | @create id' _ _ _ _ _ hstep | @delete id' _ _ _ hstep =>
    have hpc := hstep.hasReleased q
    by_cases hid : id' = id
    · simpa [Thread.hasReleased, Thread.releases, hid] using hpc
    · simp [Thread.hasReleased, Thread.releases, hid]
  | _ => exact ⟨nofun, nofun⟩

/-- It creates the sandbox and has not added it, or has obtained its metadata. -/
def Role.mayRelease : Role → Bool
  | .creating | .removing | .removed => true
  | _ => false

theorem Delete.hasObtained_of_hasReleased {pc : Delete} {q : Resource} (h : pc.hasReleased q) :
    pc.role.hasObtained := by
  cases q <;> cases pc with
  | returned d => cases d <;> first | rfl | cases h
  | _ => first | rfl | cases h

theorem Thread.mayRelease_of_hasReleased {q : Resource} (h : t.hasReleased q id) :
    (t.role id).mayRelease := by
  have hdelete : ∀ {pc : Delete}, pc.hasReleased q → pc.role.mayRelease := by
    intro pc hpc
    have := Delete.hasObtained_of_hasReleased hpc
    cases hr : pc.role <;> simp_all [Role.hasObtained, Role.mayRelease]
  cases t with
  | create id' info pc =>
    simp only [Thread.hasReleased, Bool.and_eq_true, decide_eq_true_eq] at h
    obtain ⟨rfl, h⟩ := h
    simp only [Thread.role, if_true]
    cases pc with
    | delete pc =>
      have := hdelete h
      simp only [Create.role]
      split
      next hnone => simp_all [Role.mayRelease]
      next => exact this
    | failed f =>
      cases f with
      | notReady d =>
        have hobtained : (Delete.returned d).role.mayRelease := hdelete h
        cases d <;> first | rfl | cases hobtained
      | _ => rfl
    | releasePort port => rfl
    | _ => cases q <;> cases h
  | delete id' pc =>
    simp only [Thread.hasReleased, Bool.and_eq_true, decide_eq_true_eq] at h
    obtain ⟨rfl, h⟩ := h
    simpa only [Thread.role, if_true] using hdelete h
  | _ => cases h

theorem countP_hasReleased_le (hlives : Lives s id)
    (hobtained : countRole Role.hasObtained id s.threads ≤ 1)
    (q : Resource) : s.threads.countP (·.hasReleased q id) ≤ 1 := by
  have hle : s.threads.countP (·.hasReleased q id) ≤ countRole Role.mayRelease id s.threads :=
    List.countP_mono_left fun t _ ht => t.mayRelease_of_hasReleased ht
  have hsplit : countRole Role.mayRelease id s.threads =
      countRole Role.isCreating id s.threads + countRole Role.hasObtained id s.threads := by
    refine countRole_add (fun r => ?_) id s.threads
    cases r <;> rfl
  have hcreating := hlives.creating_le
  have hearly := hlives.early
  rcases Nat.eq_zero_or_pos (countRole Role.isCreating id s.threads) with hzero | hpos
  · omega
  · have := (hearly (.inr hpos)).2
    omega

/-- What has been released has been released by different threads. -/
theorem countP_releases_step {tr : List NodeStep} {e : NodeStep} {q : Resource}
    (h : tr.countP (releases q id) ≤ s.threads.countP (·.hasReleased q id))
    (he : e.src = s ∧ e.event = .run i c) (ht : s.threads[i]? = some t)
    (hstep : t.step s.shared i c = some (s', t', new)) :
    (e :: tr).countP (releases q id) ≤ (Threads.advance s.threads i t' new).countP
      (·.hasReleased q id) := by
  have hcount := Threads.countP_advance (·.hasReleased q id) ht t' new
  obtain ⟨hkeeps, hreleases⟩ := step_hasReleased hstep q id
  have hrel : releases q id e = t.releases q id := by
    simp [releases, he.1, he.2, ht]
  rw [List.countP_cons, hrel]
  cases hr : t.releases q id with
  | true =>
    obtain ⟨hafter, hbefore⟩ := hreleases hr
    simp only [hafter, hbefore] at hcount
    simp only [if_true] at hcount ⊢
    simp only [Bool.false_eq_true, if_false] at hcount
    omega
  | false =>
    have hmono : (if t.hasReleased q id then 1 else 0) ≤ if t'.hasReleased q id then 1 else 0 := by
      split_ifs <;> simp_all
    simp only [Bool.false_eq_true, if_false]
    omega

end

/-- **Each sandbox is released once** in every run in which a call finds a sandbox only while no
other call is about to remove it. -/
theorem releasedOnce_of_run {r : Runtime} {tr : List NodeStep} {s : Pool Node Thread}
    (h : (workerNode r).Run tr s) (hG : ∀ st ∈ tr, NoRace st) (id : ℕ) : ReleasedOnce tr s id := by
  obtain ⟨hlives, hobtained, hreleased⟩ : Lives s id ∧ countRole Role.hasObtained id s.threads ≤ 1 ∧
      ∀ q, tr.countP (releases q id) ≤ s.threads.countP (·.hasReleased q id) := by
    refine run_invariant (I := fun tr s => Lives s id ∧
      countRole Role.hasObtained id s.threads ≤ 1 ∧
      ∀ q, tr.countP (releases q id) ≤ s.threads.countP (·.hasReleased q id))
      (G := NoRace) ?_ ?_ ?_ h hG
    · intro s hinit
      refine ⟨lives_of_run (.init hinit) id, ?_, fun q => Nat.zero_le _⟩
      rw [hinit.2]
      exact Nat.zero_le _
    · rintro tr s a s' ⟨hlives, hobtained, hreleased⟩ - rfl
      refine ⟨lives_start hlives r a, ?_, fun q => ?_⟩
      · rwa [countRole_start rfl]
      · refine (hreleased q).trans ?_
        rw [List.countP_append]
        exact Nat.le_add_right _ _
    · rintro tr s i c t s₁ t' new s' ⟨hlives, hobtained, hreleased⟩ hrace ht hstep rfl
      refine ⟨lives_step hlives ht hstep, obtained_step hobtained hlives ht hstep
        fun hlooksUp hne => ?_, fun q => countP_releases_step (hreleased q) ⟨rfl, rfl⟩ ht hstep⟩
      refine hrace id ?_ ?_
      · exact AList.mem_keys.2 (AList.lookup_isSome.1 (Option.isSome_iff_ne_none.2 hne))
      · simp [ht, hlooksUp]
  exact ⟨hobtained, fun q => (hreleased q).trans (countP_hasReleased_le hlives hobtained q)⟩

/-- One `DeleteSandbox` deletes the sandbox, and the next one does not find it. -/
theorem releasedOnce_of_deleted :
    ∃ tr s, (workerNode .firecracker).Run tr s ∧ (∀ st ∈ tr, NoRace st) ∧
    .delete 0 (.returned .succeeded) ∈ s.threads ∧ .delete 0 (.returned .notFound) ∈ s.threads ∧
    ReleasedOnce tr s 0 := by
  obtain ⟨tr, s, hrun, hrace, hdeleted, hnotFound⟩ : ∃ tr s, (workerNode .firecracker).Run tr s ∧
      (∀ st ∈ tr, NoRace st) ∧ .delete 0 (.returned .succeeded) ∈ s.threads ∧
      .delete 0 (.returned .notFound) ∈ s.threads :=
    Machine.exists_run_of_play (poolFilled ++ firecrackerCreation 2 "f" 100 2000 ++
      .start (.deleteSandbox 0) :: makes 4 [.ok, .ok, .ok, .ok, .ok] ++
      .start (.deleteSandbox 0) :: makes 5 [.ok]) (started_init _) (by decide +kernel)
  exact ⟨tr, s, hrun, hrace, hdeleted, hnotFound, releasedOnce_of_run hrun hrace 0⟩

/-- Two calls find one of two sandboxes before one of them removes it: its network is in the pool
twice. -/
theorem exists_released_twice : ∃ tr s, (workerNode .firecracker).Run tr s ∧
    countRole Role.hasObtained 0 s.threads = 2 ∧ tr.countP (releases .hostPort 0) = 2 ∧
    tr.countP (releases .network 0) = 2 ∧ s.shared.network.pool.count (some 0) = 2 :=
  Machine.exists_run_of_play (poolFilled ++ firecrackerCreation 2 "f" 100 2000 ++
    firecrackerCreation 4 "g" 101 2001 ++ .start (.deleteSandbox 0) :: .start (.deleteSandbox 0) ::
    makes 6 [.ok] ++ makes 7 [.ok] ++ makes 6 [.ok, .ok, .ok, .ok] ++ makes 7 [.ok, .ok, .ok, .ok])
    (started_init _) (by decide +kernel)

end Dirigent.WorkerNode
