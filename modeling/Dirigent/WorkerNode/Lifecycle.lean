import Dirigent.WorkerNode.Node

/-!
# The life of a sandbox

What becomes of one sandbox in a run: it gets its name, its `CreateSandbox` adds it to the sandbox
manager or fails, calls find it there, and are about to remove it, until it is removed. It is never
added again. The role of a thread (`Role`) says how far it is with the sandbox, and `Life` what a
step can do to the sandbox and to the role. Everything else about the threads does not matter here.

* `step_life` — every step of a thread is one of these for each sandbox.
* `Lives` — what follows in every run, by counting the threads that have a role.
* `run_invariant` — the invariant rule of the worker node.
-/

namespace Dirigent.WorkerNode

open Threads

/-- What a thread is doing with a sandbox. -/
inductive Role
  | none
  /-- It creates the sandbox, and has not added it; also after it has failed. -/
  | creating
  /-- It has added the sandbox. -/
  | present
  /-- It has found the sandbox, and is about to remove it. -/
  | removing
  /-- It has removed the sandbox. -/
  | removed
  deriving DecidableEq, Repr

def Delete.role : Delete → Role
  | .get | .returned .notFound => .none
  | .remove _ => .removing
  | _ => .removed

def Create.role : Create → Role
  | .addChannel m _ => if m.runtime.isContainerd then .creating else .present
  | .watch _ | .probe | .createSnapshot | .resumeSnapshotted | .succeeded => .present
  | .delete pc => if pc.role = .none then .present else pc.role
  | .failed (.notReady d) => if (Delete.returned d).role = .none then .present else .removed
  | _ => .creating

def Thread.role (id : ℕ) : Thread → Role
  | .create id' _ pc => if id' = id then pc.role else .none
  | .delete id' pc => if id' = id then pc.role else .none
  | _ => .none

def Delete.looksUp : Delete → Bool
  | .get => true
  | _ => false

/-- The next statement looks the sandbox up, to delete it. -/
def Thread.looksUp (id : ℕ) : Thread → Bool
  | .create id' _ (.delete pc) => id' = id && pc.looksUp
  | .delete id' pc => id' = id && pc.looksUp
  | _ => false

/-- **What a step does to a sandbox**, and to the role of the thread. -/
inductive Life (id : ℕ) (s s' : Node) (looksUp : Bool) : Role → Role → Prop
  | keep {r : Role} : s'.sandboxes.lookup id = s.sandboxes.lookup id →
      (s'.created ≤ id ↔ s.created ≤ id) → Life id s s' looksUp r r
  | begin : s.created = id → s'.created = id + 1 → s'.sandboxes = s.sandboxes →
      Life id s s' looksUp .none .creating
  | add (m : Metadata) : s'.sandboxes.lookup id = some m → s'.created = s.created →
      Life id s s' looksUp .creating .present
  | find {r : Role} (m : Metadata) : looksUp → s.sandboxes.lookup id = some m → s' = s →
      r = .none ∨ r = .present → Life id s s' looksUp r .removing
  | remove : s'.sandboxes.lookup id = none → s'.created = s.created →
      Life id s s' looksUp .removing .removed

section

variable {s s' : Node} {i id : ℕ} {info : ServiceInfo} {c : Choice} {new : List Thread}

@[simp] theorem Node.terminate_sandboxes (s : Node) (id : ℕ) (status : UInt32) :
    (s.terminate id status).sandboxes = s.sandboxes := by
  unfold Node.terminate
  split <;> rfl

@[simp] theorem Node.terminate_created (s : Node) (id : ℕ) (status : UInt32) :
    (s.terminate id status).created = s.created := by
  unfold Node.terminate
  split <;> rfl

theorem Deletes.life {pc pc' : Delete} (h : Deletes s id c pc s' pc') :
    Life id s s' pc.looksUp pc.role pc'.role := by
  cases h with
  | find m hm => exact .find m rfl hm rfl (.inl rfl)
  | remove m => exact .remove (AList.lookup_erase id s.sandboxes) rfl
  | kill | stopVM network => exact .keep (by simp) (by simp)
  | fails _ _ hf => cases pc <;> first | exact .keep rfl Iff.rfl | cases hf
  | _ => exact .keep rfl Iff.rfl

theorem Delete.role_ne_creating (pc : Delete) : pc.role ≠ .creating := by
  cases pc with
  | returned d => cases d <;> exact nofun
  | _ => exact nofun

theorem Creates.life {pc pc' : Create} (h : Creates s i id info c pc s' pc' new) :
    Life id s s' ((Thread.create id info pc).looksUp id) pc.role pc'.role := by
  cases h with
  | fails _ f hf => cases pc <;> first | (cases hf; exact .keep rfl Iff.rfl) | cases hf
  | unlockContainerd m hr | unlockFirecracker m hr =>
    simp only [Create.role, hr]
    exact .keep rfl Iff.rfl
  | addContainerd m => exact .add m (AList.lookup_insert s.sandboxes) rfl
  | addFirecracker m hr =>
    have hrole : (Create.addChannel m .lock).role = .present := by simp [Create.role, hr]
    rw [hrole]
    exact .add m (AList.lookup_insert s.sandboxes) rfl
  | deleted d => cases d <;> exact .keep rfl Iff.rfl
  | @delete pc pc₁ _ hstep =>
    have hlife := hstep.life
    simp only [Create.role]
    generalize hr : pc.role = r at hlife
    generalize hr' : pc₁.role = r' at hlife
    cases hlife with
    | keep hlookup hcreated => exact .keep hlookup hcreated
    | begin => exact absurd hr' pc₁.role_ne_creating
    | add => exact absurd hr pc.role_ne_creating
    | find m hlooksUp hm hs hr =>
      have hlooksUp : (Thread.create id info (.delete pc)).looksUp id := by
        simpa [Thread.looksUp] using hlooksUp
      rcases hr with rfl | rfl <;> exact .find m hlooksUp hm hs (.inr rfl)
    | remove hlookup hcreated => exact .remove hlookup hcreated
  | _ => exact .keep rfl Iff.rfl

variable {t t' : Thread}

theorem Creates.mem_new {pc pc' : Create} (h : Creates s i id info c pc s' pc' new) :
    ∀ u ∈ new, u = .populate ∨ ∃ m, pc = .watch m ∧ u = .watch id .receive := by
  cases h with
  | noNetwork snapshot hnew | getOneConfig snapshot network hnew =>
    exact fun u hu => .inl (hnew u hu)
  | watchContainerd m | watchFirecracker m =>
    exact fun u hu => .inr ⟨m, rfl, List.mem_singleton.1 hu⟩
  | _ => exact List.forall_mem_nil _

theorem Life.of_eq {looksUp : Bool} {r : Role} (hsandboxes : s'.sandboxes = s.sandboxes)
    (hcreated : s'.created = s.created) : Life id s s' looksUp r r := by
  refine .keep ?_ ?_
  · rw [hsandboxes]
  · rw [hcreated]

theorem Deletes.sandboxes {pc pc' : Delete} (h : Deletes s id c pc s' pc') :
    s'.created = s.created ∧ (s'.sandboxes = s.sandboxes ∨
      ∃ m, pc = .remove m ∧ s'.sandboxes = s.sandboxes.erase id) := by
  cases h with
  | remove m => exact ⟨rfl, .inr ⟨m, rfl, rfl⟩⟩
  | kill | stopVM network => simp
  | _ => exact ⟨rfl, .inl rfl⟩

theorem Creates.sandboxes {pc pc' : Create} (h : Creates s i id info c pc s' pc' new) :
    s'.created = s.created ∧ (s'.sandboxes = s.sandboxes ∨
      (∃ m, pc = .addSandbox m ∧ s'.sandboxes = s.sandboxes.insert id m ∧
        s'.processes = s.processes) ∨
      ∃ m, pc = .delete (.remove m) ∧ s'.sandboxes = s.sandboxes.erase id) := by
  cases h with
  | addContainerd m | addFirecracker m => exact ⟨rfl, .inr (.inl ⟨m, rfl, rfl, rfl⟩)⟩
  | delete hstep =>
    obtain ⟨hcreated, hsandboxes⟩ := hstep.sandboxes
    refine ⟨hcreated, hsandboxes.imp_right fun ⟨m, hpc, hs⟩ => .inr ⟨m, ?_, hs⟩⟩
    rw [hpc]
  | _ => exact ⟨rfl, .inl rfl⟩

/-- A step of one sandbox leaves the others alone. -/
theorem Deletes.other {pc pc' : Delete} (h : Deletes s id c pc s' pc') :
    s'.created = s.created ∧ ∀ j, j ≠ id → s'.sandboxes.lookup j = s.sandboxes.lookup j := by
  obtain ⟨hcreated, hsandboxes⟩ := h.sandboxes
  refine ⟨hcreated, fun j hj => ?_⟩
  rcases hsandboxes with hs | ⟨m, -, hs⟩
  · rw [hs]
  · rw [hs, AList.lookup_erase_ne hj]

theorem Creates.other {pc pc' : Create} (h : Creates s i id info c pc s' pc' new) :
    s'.created = s.created ∧ ∀ j, j ≠ id → s'.sandboxes.lookup j = s.sandboxes.lookup j := by
  obtain ⟨hcreated, hsandboxes⟩ := h.sandboxes
  refine ⟨hcreated, fun j hj => ?_⟩
  rcases hsandboxes with hs | ⟨m, -, hs, -⟩ | ⟨m, -, hs⟩
  · rw [hs]
  · rw [hs, AList.lookup_insert_ne hj]
  · rw [hs, AList.lookup_erase_ne hj]

theorem Watched.frame {pc pc' : Watch} (h : Watched s id pc s' pc') :
    s'.sandboxes = s.sandboxes ∧ s'.created = s.created ∧ s'.processes = s.processes := by
  cases h <;> exact ⟨rfl, rfl, rfl⟩

theorem Handled.frame {pc pc' : Handler} (h : Handled s i c pc s' pc') :
    s'.sandboxes = s.sandboxes ∧ s'.created = s.created ∧ s'.processes = s.processes := by
  cases h <;> exact ⟨rfl, rfl, rfl⟩

/-- **What a step does to the sandbox `id`.** -/
theorem step_life (h : t.step s i c = some (s', t', new)) (id : ℕ) :
    Life id s s' (t.looksUp id) (t.role id) (t'.role id) := by
  cases Thread.step_cases h with
  | begin r info =>
    simp only [Thread.role]
    split
    next heq => cases r <;> exact .begin heq (by rw [← heq]) rfl
    next hne => exact .keep rfl (by dsimp only; omega)
  | @create id' _ _ _ _ _ hstep =>
    simp only [Thread.role]
    split
    next heq =>
      subst heq
      exact hstep.life
    next hne =>
      obtain ⟨hcreated, hlookup⟩ := hstep.other
      exact .keep (hlookup id (Ne.symm hne)) (by rw [hcreated])
  | @delete id' _ _ _ hstep =>
    simp only [Thread.role]
    split
    next heq =>
      subst heq
      simpa [Thread.looksUp] using hstep.life
    next hne =>
      obtain ⟨hcreated, hlookup⟩ := hstep.other
      exact .keep (hlookup id (Ne.symm hne)) (by rw [hcreated])
  | watch hstep | eventHandler hstep =>
    obtain ⟨hsandboxes, hcreated, -⟩ := hstep.frame
    exact .of_eq hsandboxes hcreated
  | populate | populated | foreignExit => exact .of_eq rfl rfl
  | @exit id' status =>
    exact .of_eq (s.terminate_sandboxes id' status) (s.terminate_created id' status)

theorem step_added (h : t.step s i c = some (s', t', new)) {id : ℕ}
    (hnone : s.sandboxes.lookup id = none) (hne : s'.sandboxes.lookup id ≠ none) :
    (∃ info m, t = .create id info (.addSandbox m)) ∧ s'.processes = s.processes := by
  have hsame : s'.sandboxes ≠ s.sandboxes := by
    intro hs
    rw [hs] at hne
    exact hne hnone
  have herase : ∀ j, s'.sandboxes ≠ s.sandboxes.erase j := by
    intro j hs
    rw [hs] at hne
    by_cases hj : id = j
    · rw [hj, AList.lookup_erase] at hne
      exact hne rfl
    · rw [AList.lookup_erase_ne hj] at hne
      exact hne hnone
  cases Thread.step_cases h with
  | @create id' info _ _ _ _ hstep =>
    rcases hstep.sandboxes.2 with hs | ⟨m, rfl, hs, hprocesses⟩ | ⟨m, -, hs⟩
    · exact absurd hs hsame
    · by_cases hid : id = id'
      · subst hid
        exact ⟨⟨info, m, rfl⟩, hprocesses⟩
      · rw [hs, AList.lookup_insert_ne hid] at hne
        exact absurd hnone hne
    · exact absurd hs (herase id')
  | @delete id' _ _ _ hstep =>
    rcases hstep.sandboxes.2 with hs | ⟨m, -, hs⟩
    · exact absurd hs hsame
    · exact absurd hs (herase id')
  | watch hstep | eventHandler hstep => exact absurd hstep.frame.1 hsame
  | @exit id' status => exact absurd (s.terminate_sandboxes id' status) hsame
  | _ => exact absurd rfl hsame

theorem step_new (h : t.step s i c = some (s', t', new)) :
    ∀ u ∈ new, u = .populate ∨ ∃ id info m, t = .create id info (.watch m) ∧
    u = .watch id .receive := by
  cases Thread.step_cases h with
  | @create id info _ _ _ _ hstep =>
    intro u hu
    rcases hstep.mem_new u hu with hu | ⟨m, rfl, hu⟩
    · exact .inl hu
    · exact .inr ⟨id, info, m, rfl, hu⟩
  | _ => exact List.forall_mem_nil _

theorem role_new (h : t.step s i c = some (s', t', new)) (id : ℕ) :
    ∀ u ∈ new, u.role id = .none := by
  intro u hu
  rcases step_new h u hu with rfl | ⟨_, _, _, -, rfl⟩ <;> rfl

theorem role_thread (r : Runtime) (a : Call) (id : ℕ) : (a.thread r).role id = .none := by
  cases a with
  | deleteSandbox id' => simp [Call.thread, Thread.role, Delete.role]
  | _ => rfl

end

/-! ## Counting roles -/

/-- One for a fact. -/
def one (b : Bool) : ℕ := if b then 1 else 0

theorem one_le_one {a b : Bool} (h : a → b) : one a ≤ one b := by
  cases a <;> cases b <;> simp_all [one]

/-- How many threads have a role with `p`. -/
def countRole (p : Role → Bool) (id : ℕ) (ts : List Thread) : ℕ := ts.countP fun t => p (t.role id)

section

variable {p : Role → Bool} {s s' : Node} {ts : List Thread} {i id : ℕ} {c : Choice} {t t' : Thread}
  {new : List Thread}

theorem countRole_advance (p : Role → Bool) (id : ℕ) (hp : p .none = false) (ht : ts[i]? = some t)
    (h : t.step s i c = some (s', t', new)) :
    countRole p id (advance ts i t' new) + (if p (t.role id) then 1 else 0) =
      countRole p id ts + if p (t'.role id) then 1 else 0 := by
  have hnew : new.countP (fun t => p (t.role id)) = 0 := by
    rw [List.countP_eq_zero]
    intro u hu
    rw [role_new h id u hu, hp]
    exact Bool.false_ne_true
  have hcount := countP_advance (fun t : Thread => p (t.role id)) ht t' new
  rw [hnew] at hcount
  exact hcount

theorem countRole_start (hp : p .none = false) (r : Runtime) (a : Call) :
    countRole p id (ts ++ [a.thread r]) = countRole p id ts := by
  simp [countRole, List.countP_append, role_thread, hp]

theorem countRole_pos (ht : t ∈ ts) (hp : p (t.role id)) : 0 < countRole p id ts :=
  List.countP_pos_iff.2 ⟨t, ht, hp⟩

/-- Roles that are of one kind or of another. -/
theorem countRole_add {q u : Role → Bool}
    (h : ∀ r, (if p r then 1 else 0) = (if q r then 1 else 0) + if u r then 1 else 0) (id : ℕ)
    (ts : List Thread) : countRole p id ts = countRole q id ts + countRole u id ts := by
  induction ts with
  | nil => rfl
  | cons t ts ih =>
    simp only [countRole, List.countP_cons] at ih ⊢
    rw [h, ih]
    omega

theorem countRole_mono {q : Role → Bool} (h : ∀ r, p r → q r) (id : ℕ) (ts : List Thread) :
    countRole p id ts ≤ countRole q id ts :=
  List.countP_mono_left fun t _ ht => h (t.role id) ht

end

/-- It creates the sandbox and has not added it. -/
def Role.isCreating : Role → Bool
  | .creating => true
  | _ => false

def Role.isRemoving : Role → Bool
  | .removing => true
  | _ => false

/-- It has obtained the metadata from the sandbox manager. -/
def Role.hasObtained : Role → Bool
  | .removing | .removed => true
  | _ => false

def Role.hasRemoved : Role → Bool
  | .removed => true
  | _ => false

/-- The `CreateSandbox` of a sandbox. -/
def Thread.isCreate (id : ℕ) : Thread → Bool
  | .create id' _ _ => id' = id
  | _ => false

/-- **The life of a sandbox.** It has one `CreateSandbox`. Before it is added nobody has found it,
while it is registered nobody has removed it, and if it is neither then somebody has. -/
structure Lives (s : Pool Node Thread) (id : ℕ) : Prop where
  creators : (if s.shared.created ≤ id then 1 else 0) + s.threads.countP (·.isCreate id) = 1
  absent : s.shared.sandboxes.lookup id = none → s.shared.created ≤ id ∨
    0 < countRole Role.isCreating id s.threads ∨ 0 < countRole Role.hasRemoved id s.threads
  early : s.shared.created ≤ id ∨ 0 < countRole Role.isCreating id s.threads →
    s.shared.sandboxes.lookup id = none ∧ countRole Role.hasObtained id s.threads = 0
  removed : s.shared.sandboxes.lookup id ≠ none → countRole Role.hasRemoved id s.threads = 0

theorem Role.hasObtained_of_hasRemoved : ∀ r : Role, r.hasRemoved → r.hasObtained
  | .removed, _ => rfl

abbrev NodeStep := Machine.Step (Pool Node Thread) (Threads.Event Call Choice)

variable {t t' : Thread} {id i : ℕ} {s : Pool Node Thread} {s' : Node} {c : Choice}
  {new : List Thread} {r : Runtime} {tr : List NodeStep}

theorem Thread.isCreate_of_isCreating (h : (t.role id).isCreating) :
    t.isCreate id := by
  cases t with
  | create id' info pc =>
    by_cases hid : id' = id
    · simp [Thread.isCreate, hid]
    · simp [Thread.role, hid, Role.isCreating] at h
  | delete id' pc =>
    by_cases hid : id' = id
    · have hne := pc.role_ne_creating
      cases hr : pc.role <;> simp_all [Thread.role, Role.isCreating]
    · simp [Thread.role, hid, Role.isCreating] at h
  | _ => cases h

theorem Lives.creating_le (h : Lives s id) :
    (if s.shared.created ≤ id then 1 else 0) + countRole Role.isCreating id s.threads ≤ 1 := by
  have hle : countRole Role.isCreating id s.threads ≤ s.threads.countP (·.isCreate id) :=
    List.countP_mono_left fun t _ ht => Thread.isCreate_of_isCreating ht
  have hcreators := h.creators
  omega

/-- A step does not make or unmake a `CreateSandbox`, except that the next one draws its name. -/
theorem creators_step
    (h : (if s.shared.created ≤ id then 1 else 0) + s.threads.countP (·.isCreate id) = 1)
    (ht : s.threads[i]? = some t) (hstep : t.step s.shared i c = some (s', t', new)) :
    (if s'.created ≤ id then 1 else 0) + (advance s.threads i t' new).countP
      (·.isCreate id) = 1 := by
  have hcount := countP_advance (fun t : Thread => t.isCreate id) ht t' new
  have hnew : new.countP (fun t : Thread => t.isCreate id) = 0 := by
    rw [List.countP_eq_zero]
    intro u hu
    rcases step_new hstep u hu with rfl | ⟨_, _, _, -, rfl⟩ <;> exact Bool.false_ne_true
  rw [hnew] at hcount
  have hkeep : t'.isCreate id = t.isCreate id → s'.created = s.shared.created →
      (if s'.created ≤ id then 1 else 0)
        + (advance s.threads i t' new).countP (·.isCreate id) = 1 := by
    intro hsame hcreated
    rw [hsame] at hcount
    rw [hcreated]
    omega
  cases Thread.step_cases hstep with
  | begin r info =>
    have hbefore : (Thread.createSandbox r info).isCreate id = false := rfl
    have hafter : (Thread.create s.shared.created info r.first).isCreate id =
        decide (s.shared.created = id) := rfl
    simp only [hbefore, hafter, Bool.false_eq_true, if_false, decide_eq_true_eq] at hcount
    dsimp only
    split_ifs at h hcount ⊢ <;> omega
  | create hs | delete hs => exact hkeep rfl hs.other.1
  | watch hs | eventHandler hs => exact hkeep rfl hs.frame.2.1
  | populate | populated | foreignExit => exact hkeep rfl rfl
  | @exit id' status => exact hkeep rfl (s.shared.terminate_created id' status)

theorem lives_step (h : Lives s id) (ht : s.threads[i]? = some t)
    (hstep : t.step s.shared i c = some (s', t', new)) :
    Lives ⟨s', advance s.threads i t' new⟩ id := by
  have hle := h.creating_le
  have hcreators := creators_step h.creators ht hstep
  obtain ⟨-, habsent, hearly, hremoved⟩ := h
  have hcreating := countRole_advance Role.isCreating id rfl ht hstep
  have hobtained := countRole_advance Role.hasObtained id rfl ht hstep
  have hrem := countRole_advance Role.hasRemoved id rfl ht hstep
  have hpos : ∀ {p : Role → Bool}, p (t.role id) = true → 0 < countRole p id s.threads := fun hp =>
    countRole_pos (List.mem_of_getElem? ht) hp
  have hmono := countRole_mono Role.hasObtained_of_hasRemoved id s.threads
  have hlife := step_life hstep id
  generalize t.role id = r at hlife hcreating hobtained hrem hpos
  generalize t'.role id = r' at hlife hcreating hobtained hrem
  cases hlife with
  | keep hlookup hcreated =>
    have hcreating := Nat.add_right_cancel hcreating
    have hobtained := Nat.add_right_cancel hobtained
    have hrem := Nat.add_right_cancel hrem
    refine ⟨hcreators, ?_, ?_, ?_⟩
    · simpa only [hlookup, hcreated, hcreating, hrem] using habsent
    · simpa only [hcreated, hcreating, hlookup, hobtained] using hearly
    · simpa only [hlookup, hrem] using hremoved
  | begin hid hcreated hsandboxes =>
    simp only [Role.isCreating, Role.hasObtained, Role.hasRemoved, Bool.false_eq_true,
      if_false, if_true]
      at hcreating hobtained hrem
    obtain ⟨hnone, hzero⟩ := hearly (.inl hid.le)
    refine ⟨hcreators, fun _ => .inr (.inl ?_), fun _ => ⟨?_, ?_⟩, fun hne => ?_⟩
    · dsimp only
      omega
    · rw [← hnone, ← hsandboxes]
    · dsimp only
      omega
    · exact absurd (by rw [← hnone, ← hsandboxes]) hne
  | add m hlookup hcreated =>
    simp only [Role.isCreating, Role.hasObtained, Role.hasRemoved, Bool.false_eq_true,
      if_false, if_true]
      at hcreating hobtained hrem
    have hone := hpos (p := Role.isCreating) rfl
    obtain ⟨-, hzero⟩ := hearly (.inr hone)
    have hnot : ¬ s.shared.created ≤ id := by
      intro hle'
      rw [if_pos hle'] at hle
      omega
    rw [if_neg hnot] at hle
    refine ⟨hcreators, fun hnone => ?_, ?_, fun _ => ?_⟩
    · rw [hlookup] at hnone
      cases hnone
    · dsimp only
      rw [hcreated]
      intro hor
      omega
    · dsimp only
      omega
  | find m _ hm hs hr =>
    subst hs
    have hlate : ¬ (s.shared.created ≤ id ∨ 0 < countRole Role.isCreating id s.threads) := by
      intro hor
      rw [(hearly hor).1] at hm
      cases hm
    have hfound : s.shared.sandboxes.lookup id ≠ none := by simp [hm]
    have hsame : countRole Role.isCreating id (advance s.threads i t' new)
          = countRole Role.isCreating id s.threads ∧
        countRole Role.hasRemoved id (advance s.threads i t' new)
          = countRole Role.hasRemoved id s.threads := by
      rcases hr with rfl | rfl <;> exact ⟨hcreating, hrem⟩
    refine ⟨hcreators, fun hnone => absurd hnone hfound, fun hor => ?_, fun hne => ?_⟩
    · rw [hsame.1] at hor
      exact absurd hor hlate
    · rw [hsame.2]
      exact hremoved hne
  | remove hlookup hcreated =>
    simp only [Role.isCreating, Role.hasObtained, Role.hasRemoved, Bool.false_eq_true,
      if_false, if_true, Nat.add_zero] at hcreating hobtained hrem
    have hone := hpos (p := Role.hasObtained) rfl
    refine ⟨hcreators, fun _ => .inr (.inr ?_), fun hor => ?_, fun hne => absurd hlookup hne⟩
    · dsimp only
      omega
    · dsimp only at hor
      rw [hcreated, hcreating] at hor
      have := (hearly hor).2
      omega

theorem lives_start (h : Lives s id) (r : Runtime) (a : Call) :
    Lives ⟨s.shared, s.threads ++ [a.thread r]⟩ id := by
  obtain ⟨hcreators, habsent, hearly, hremoved⟩ := h
  have hcount : ∀ p : Role → Bool, p .none = false →
      countRole p id (s.threads ++ [a.thread r]) = countRole p id s.threads := fun p hp =>
    countRole_start hp r a
  refine ⟨?_, ?_, ?_, ?_⟩
  · cases a <;> simpa [List.countP_append, Call.thread, Thread.isCreate] using hcreators
  · rwa [hcount _ rfl, hcount _ rfl]
  · rwa [hcount _ rfl, hcount _ rfl]
  · rwa [hcount _ rfl]

/-- **The invariant rule of the worker node**: a call comes in, or a thread makes a step. -/
theorem run_invariant {I : List NodeStep → Pool Node Thread → Prop} {G : NodeStep → Prop}
    (h₀ : ∀ s, (workerNode r).init s → I [] s)
    (hstart : ∀ tr s a s', I tr s → G ⟨s, .start a, s'⟩ →
      s' = ⟨s.shared, s.threads ++ [a.thread r]⟩ → I (⟨s, .start a, s'⟩ :: tr) s')
    (hstep : ∀ tr s i c t s₁ t' new s', I tr s → G ⟨s, .run i c, s'⟩ → s.threads[i]? = some t →
      t.step s.shared i c = some (s₁, t', new) → s' = ⟨s₁, advance s.threads i t' new⟩ →
      I (⟨s, .run i c, s'⟩ :: tr) s') (h : (workerNode r).Run tr s) (hG : ∀ t ∈ tr, G t) :
    I tr s := by
  refine h.invariant h₀ ?_ hG
  intro tr s e s' _ hI hG hn
  rcases Threads.next_cases hn with ⟨a, t, rfl, hcall, rfl⟩ |
    ⟨i, c, t, s₁, t', new, rfl, ht, hs, rfl⟩
  · cases hcall
    exact hstart tr s a _ hI hG rfl
  · exact hstep tr s i c t s₁ t' new _ hI hG ht hs rfl

/-- The condition on the threads, for every step that one of them makes. -/
def StepSatisfies (C : Pool Node Thread → Choice → Thread → Prop) (st : NodeStep) : Prop :=
  match st.event with
  | .start _ => True
  | .run i c => ∀ t ∈ st.src.threads[i]?, C st.src c t

instance (C : Pool Node Thread → Choice → Thread → Prop) [∀ s c, DecidablePred (C s c)] :
    DecidablePred (StepSatisfies C) := fun
  | ⟨_, .start _, _⟩ => .isTrue trivial
  | ⟨s, .run i c, _⟩ => inferInstanceAs (Decidable (∀ t ∈ s.threads[i]?, C s c t))

theorem lives_of_run (h : (workerNode r).Run tr s) (id : ℕ) : Lives s id := by
  refine run_invariant (I := fun _ s => Lives s id) (G := fun _ => True) ?_ ?_ ?_ h
    fun _ _ => trivial
  · rintro ⟨s, ts⟩ ⟨⟨_, _, _, _, rfl⟩, rfl⟩
    exact ⟨by simp [Thread.isCreate], fun _ => .inl (Nat.zero_le _),
      fun _ => ⟨rfl, by simp [countRole, Thread.role, Role.hasObtained]⟩, fun hne => absurd rfl hne⟩
  · intro tr s a s' hlives _ hs'
    rw [hs']
    exact lives_start hlives r a
  · intro tr s i c t s₁ t' new s' hlives _ ht hs hs'
    rw [hs']
    exact lives_step hlives ht hs

theorem Lives.eq_of_isCreate {t u : Thread} (h : Lives s id) (ht : t ∈ s.threads)
    (htc : t.isCreate id) (hu : u ∈ s.threads) (huc : u.isCreate id) : t = u := by
  have hle : s.threads.countP (·.isCreate id) ≤ 1 := by
    have hcreators := h.creators
    omega
  exact eq_of_countP_le_one hle ht htc hu huc

/-! ## Schedules -/

/-- A node that has just been started. -/
def started : Pool Node Thread where
  shared := { nodeName := "worker", useSnapshots := false, exposedIP := fun _ => "192.168.0.2"
              network := { maxNetworkPoolSize := 16 } }
  threads := [.eventHandler .read, .populate]

theorem started_init (r : Runtime) : (workerNode r).init started := ⟨⟨_, _, _, 16, rfl⟩, rfl⟩

/-- The thread `i` makes steps with these choices. -/
def makes (i : ℕ) (cs : List Choice) : List (Threads.Event Call Choice) := cs.map (.run i)

/-- The constructor of the network pool, which fills it. -/
def poolFilled : List (Threads.Event Call Choice) := makes 1 (List.replicate 17 .ok)

/-- A Firecracker sandbox is created by thread `i`, and ready; the next thread watches it. -/
def firecrackerCreation (i : ℕ) (name : String) (pid port : ℕ) :
    List (Threads.Event Call Choice) :=
  .start (.createSandbox ⟨name, "image", 80⟩) :: makes i [.ok, .ok, .ok, .ok, .pid pid, .port port,
    .ok, .ok, .ok, .ok, .ok, .ok, .ok]

/-- A containerd sandbox is created by thread `i`. -/
def containerdCreation (i : ℕ) (name ip : String) (pid port : ℕ) :
    List (Threads.Event Call Choice) :=
  .start (.createSandbox ⟨name, "image", 80⟩) :: makes i [.ok, .ok, .ok, .ok, .ok, .ip ip, .pid pid,
    .port port, .ok, .ok, .ok, .ok, .ok]

/-- **A registered sandbox** has one `CreateSandbox`, which has added it, and nobody has removed it.
-/
theorem registered_of_run {r : Runtime} {tr : List NodeStep} {s : Pool Node Thread}
    (h : (workerNode r).Run tr s) {id : ℕ} (hid : s.shared.sandboxes.lookup id ≠ none) :
    s.threads.countP (·.isCreate id) = 1 ∧ countRole Role.isCreating id s.threads = 0 ∧
      countRole Role.hasRemoved id s.threads = 0 := by
  have hlives := lives_of_run h id
  have hlate : ¬ (s.shared.created ≤ id ∨ 0 < countRole Role.isCreating id s.threads) :=
    fun hearly => hid (hlives.early hearly).1
  have hcreators := hlives.creators
  rw [if_neg (by omega)] at hcreators
  exact ⟨by omega, by omega, hlives.removed hid⟩

theorem registered_of_run_containerd : ∃ tr s, (workerNode .containerd).Run tr s ∧
    s.shared.sandboxes.lookup 0 ≠ none ∧ s.threads.countP (·.isCreate 0) = 1 := by
  obtain ⟨tr, s, hrun, hid⟩ : ∃ tr s, (workerNode .containerd).Run tr s ∧
      s.shared.sandboxes.lookup 0 ≠ none :=
    Machine.exists_run_of_play (containerdCreation 2 "f" "10.0.0.2" 100 2000) (started_init _)
      (by decide +kernel)
  exact ⟨tr, s, hrun, hid, (registered_of_run hrun hid).1⟩

end Dirigent.WorkerNode
