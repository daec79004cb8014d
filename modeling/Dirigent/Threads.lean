import Dirigent.Machine

/-!
# Threads over a shared state

A pool is a shared state with the local states of the threads that have been started on it; a
thread is known by its position. One step of one thread changes the shared state, moves the
thread on, and may start further threads. New calls may come in at any time.

* `Threads.machine` — the machine of all interleavings.
* `Threads.next_cases` — what one step of the pool can do.
* `getElem?_advance`, `sum_advance`, `countP_advance` — the threads after a step, what they weigh
  and how many of a kind there are.
-/

/-- A program for threads: the calls that may come in, with the thread each starts, and the step
of a thread at position `i` with local state `t`. The choice `c` resolves what the thread itself
leaves open. -/
structure Threads (σ θ ι κ : Type*) where
  init : σ → Prop
  call : ι → Option θ
  step : σ → ℕ → θ → κ → Option (σ × θ × List θ)

/-- A shared state and the threads started on it. -/
structure Pool (σ θ : Type*) where
  shared : σ
  threads : List θ
  deriving DecidableEq

namespace Threads

variable {σ θ ι κ : Type*}

inductive Event (ι κ : Type*)
  /-- A call comes in. -/
  | start (a : ι)
  /-- The thread at position `i` makes a step. -/
  | run (i : ℕ) (c : κ)
  deriving DecidableEq

/-- The threads after thread `i` has moved to `t` and has started `new`. -/
def advance (ts : List θ) (i : ℕ) (t : θ) (new : List θ) : List θ := ts.set i t ++ new

/-- All interleavings of any number of calls. -/
def machine (P : Threads σ θ ι κ) : Machine (Pool σ θ) (Event ι κ) where
  init s := P.init s.shared ∧ s.threads = []
  next s
    | .start a => (P.call a).map fun t => ⟨s.shared, s.threads ++ [t]⟩
    | .run i c => s.threads[i]?.bind fun t =>
        (P.step s.shared i t c).map fun r => ⟨r.1, advance s.threads i r.2.1 r.2.2⟩

variable {P : Threads σ θ ι κ} {s s' : Pool σ θ}

/-- What a step of the pool can do: a call comes in, or one thread moves. -/
theorem next_cases {e : Event ι κ} (h : P.machine.next s e = some s') :
    (∃ a t, e = .start a ∧ P.call a = some t ∧ s' = ⟨s.shared, s.threads ++ [t]⟩) ∨
    (∃ i c t σ' t' new, e = .run i c ∧ s.threads[i]? = some t ∧
      P.step s.shared i t c = some (σ', t', new) ∧ s' = ⟨σ', advance s.threads i t' new⟩) := by
  cases e with
  | start a =>
    simp only [machine, Option.map_eq_some_iff] at h
    obtain ⟨t, ht, rfl⟩ := h
    exact .inl ⟨a, t, rfl, ht, rfl⟩
  | run i c =>
    simp only [machine, Option.bind_eq_some_iff, Option.map_eq_some_iff] at h
    obtain ⟨t, ht, ⟨σ', t', new⟩, hstep, rfl⟩ := h
    exact .inr ⟨i, c, t, σ', t', new, rfl, ht, hstep, rfl⟩

theorem exists_step_of_next {i : ℕ} {c : κ} {t : θ} (ht : s.threads[i]? = some t)
    (h : P.machine.next s (.run i c) = some s') : ∃ r, P.step s.shared i t c = some r := by
  simp only [machine, ht, Option.bind_some, Option.map_eq_some_iff] at h
  obtain ⟨r, hr, -⟩ := h
  exact ⟨r, hr⟩

/-! ## The threads after a step -/

variable {ts new : List θ} {i j : ℕ} {t t' u : θ} {p : θ → Bool}

/-- A thread after a step is the one that moved, one that did not, or a new one. -/
theorem getElem?_advance (ht : ts[i]? = some t) (h : (advance ts i t' new)[j]? = some u) :
    (j = i ∧ u = t') ∨ (j ≠ i ∧ ts[j]? = some u) ∨ (ts.length ≤ j ∧ u ∈ new) := by
  have hi : i < ts.length := (List.getElem?_eq_some_iff.1 ht).1
  rw [advance, List.getElem?_append] at h
  split at h
  · rw [List.getElem?_set] at h
    split at h
    · next hij => simp_all
    · next hij => exact .inr (.inl ⟨fun hji => hij hji.symm, h⟩)
  · next hlen =>
    rw [List.length_set] at hlen
    exact .inr (.inr ⟨not_lt.1 hlen, List.mem_of_getElem? h⟩)

theorem getElem?_advance_self (t' : θ) (new : List θ) (ht : ts[i]? = some t) :
    (advance ts i t' new)[i]? = some t' := by
  have hi : i < ts.length := (List.getElem?_eq_some_iff.1 ht).1
  simp [advance, List.getElem?_append, hi]

theorem getElem?_advance_of_ne (t' : θ) (new : List θ) (hj : ts[j]? = some u) (hij : j ≠ i) :
    (advance ts i t' new)[j]? = some u := by
  have hlt : j < ts.length := (List.getElem?_eq_some_iff.1 hj).1
  rw [advance, List.getElem?_append_left (by simpa using hlt), List.getElem?_set_ne hij.symm, hj]

/-- A thread after a step is the one that moved, one at another position, or a new one. -/
theorem mem_advance (ht : ts[i]? = some t) (h : u ∈ advance ts i t' new) :
    u = t' ∨ (∃ j, j ≠ i ∧ ts[j]? = some u) ∨ u ∈ new := by
  obtain ⟨j, hj⟩ := List.mem_iff_getElem?.1 h
  rcases getElem?_advance ht hj with ⟨-, rfl⟩ | ⟨hji, hj⟩ | ⟨-, hu⟩
  · exact .inl rfl
  · exact .inr (.inl ⟨j, hji, hj⟩)
  · exact .inr (.inr hu)

theorem mem_of_mem_advance (h : u ∈ advance ts i t' new) : u = t' ∨ u ∈ ts ∨ u ∈ new := by
  rcases List.mem_append.1 h with h | h
  · exact (List.mem_or_eq_of_mem_set h).elim (fun h => .inr (.inl h)) .inl
  · exact .inr (.inr h)

theorem forall_mem_advance {P : θ → Prop} (hself : P t') (hold : ∀ u ∈ ts, P u)
    (hnew : ∀ u ∈ new, P u) : ∀ u ∈ advance ts i t' new, P u := by
  intro u hu
  rcases mem_of_mem_advance hu with rfl | hu | hu
  · exact hself
  · exact hold u hu
  · exact hnew u hu

/-- What holds of the threads there were and of one that is started, holds of all. -/
theorem forall_mem_concat {P : θ → Prop} (hold : ∀ u ∈ ts, P u) (hnew : P t) :
    ∀ u ∈ ts ++ [t], P u :=
  List.forall_mem_append.2 ⟨hold, List.forall_mem_singleton.2 hnew⟩

theorem mem_advance_self (t' : θ) (new : List θ) (ht : ts[i]? = some t) :
    t' ∈ advance ts i t' new :=
  List.mem_of_getElem? (getElem?_advance_self t' new ht)

theorem mem_advance_of_ne (t' : θ) (new : List θ) (ht : ts[i]? = some t) (hu : u ∈ ts)
    (hne : u ≠ t) : u ∈ advance ts i t' new := by
  obtain ⟨j, hj⟩ := List.mem_iff_getElem?.1 hu
  refine List.mem_of_getElem? (getElem?_advance_of_ne t' new hj ?_)
  rintro rfl
  exact hne (Option.some.inj (hj.symm.trans ht))

theorem exists_mem_advance {P : θ → Prop} (ht : ts[i]? = some t) (hself : P t → P t')
    (h : ∃ u ∈ ts, P u) : ∃ u ∈ advance ts i t' new, P u := by
  obtain ⟨u, hu, hP⟩ := h
  by_cases hut : u = t
  · exact ⟨t', mem_advance_self t' new ht, hself (hut ▸ hP)⟩
  · exact ⟨u, mem_advance_of_ne t' new ht hu hut, hP⟩

theorem exists_of_forall₂ {θ' : Type*} {R : θ → θ' → Prop} {gs : List θ} {ts : List θ'} {t : θ'}
    (h : List.Forall₂ R gs ts) (ht : ts[i]? = some t) : ∃ g, gs[i]? = some g ∧ R g t := by
  induction h generalizing i with
  | nil => simp at ht
  | cons hR _ ih =>
    cases i with
    | zero => exact ⟨_, rfl, by simpa [Option.some.inj ht] using hR⟩
    | succ i => exact ih (by simpa using ht)

theorem forall₂_advance {θ' : Type*} {R : θ → θ' → Prop} {gs gnew : List θ} {ts tnew : List θ'}
    {g : θ} {t : θ'} (h : List.Forall₂ R gs ts) (hR : R g t) (hnew : List.Forall₂ R gnew tnew) :
    List.Forall₂ R (advance gs i g gnew) (advance ts i t tnew) := by
  refine List.rel_append ?_ hnew
  induction h generalizing i with
  | nil => exact .nil
  | cons hR' hrest ih =>
    cases i with
    | zero => exact .cons hR hrest
    | succ i => exact .cons hR' ih

theorem map_advance {θ' : Type*} (f : θ → θ') (ts new : List θ) (i : ℕ) (t : θ) :
    (advance ts i t new).map f = advance (ts.map f) i (f t) (new.map f) := by
  rw [advance, advance, List.map_append, List.map_set]

/-- What `f` says of the thread at each position, and `d` where there is none. -/
def modeAt {α : Type*} (f : θ → α) (d : α) (ts : List θ) (i : ℕ) : α := (ts[i]?.map f).getD d

theorem modeAt_of_getElem? {α : Type*} {f : θ → α} {d : α} (ht : ts[i]? = some t) :
    modeAt f d ts i = f t := by simp [modeAt, ht]

/-- A step changes `f` at the thread that moved, if `f` does not tell new threads from none. -/
theorem modeAt_advance {α : Type*} (f : θ → α) (d : α) (ht : ts[i]? = some t) (t' : θ)
    (hnew : ∀ u ∈ new, f u = d) :
    modeAt f d (advance ts i t' new) = Function.update (modeAt f d ts) i (f t') := by
  funext j
  rcases eq_or_ne j i with rfl | hji
  · rw [Function.update_self, modeAt_of_getElem? (getElem?_advance_self t' new ht)]
  · rw [Function.update_of_ne hji]
    cases hj : ts[j]? with
    | some u =>
      rw [modeAt_of_getElem? (getElem?_advance_of_ne t' new hj hji), modeAt_of_getElem? hj]
    | none =>
      have hd : modeAt f d ts j = d := by simp [modeAt, hj]
      rw [hd]
      cases hu : (advance ts i t' new)[j]? with
      | none => simp [modeAt, hu]
      | some u =>
        rw [modeAt_of_getElem? hu]
        rcases getElem?_advance ht hu with ⟨hji', -⟩ | ⟨-, hju⟩ | ⟨-, hmem⟩
        · exact absurd hji' hji
        · simp [hj] at hju
        · exact hnew u hmem

theorem modeAt_append {α : Type*} (f : θ → α) (d : α) (ht : f t = d) :
    modeAt f d (ts ++ [t]) = modeAt f d ts := by
  funext j
  simp only [modeAt]
  rcases lt_trichotomy j ts.length with h | h | h
  · rw [List.getElem?_append_left h]
  · subst h
    simp [ht]
  · rw [List.getElem?_eq_none (by simpa using h), List.getElem?_eq_none h.le]

/-- The weights of the threads after a step: the thread that moved counts anew. -/
theorem sum_advance {M : Type*} [AddCommMonoid M] (w : θ → M) (ht : ts[i]? = some t) (t' : θ)
    (new : List θ) :
    ((advance ts i t' new).map w).sum + w t = (ts.map w).sum + w t' + (new.map w).sum := by
  induction ts generalizing i with
  | nil => simp at ht
  | cons u ts ih =>
    cases i with
    | zero =>
      obtain rfl : u = t := by simpa using ht
      simp only [advance, List.set_cons_zero, List.cons_append, List.map_cons, List.sum_cons,
        List.map_append, List.sum_append]
      abel
    | succ i =>
      have ih' := ih (i := i) (by simpa using ht)
      simp only [advance, List.set_cons_succ, List.cons_append, List.map_cons, List.sum_cons]
        at ih' ⊢
      rw [add_assoc, ih']
      abel

theorem sum_map_boole (p : θ → Bool) (ts : List θ) :
    (ts.map fun t => if p t then 1 else 0).sum = ts.countP p := by
  induction ts with
  | nil => rfl
  | cons t ts ih => rw [List.map_cons, List.sum_cons, ih, List.countP_cons, add_comm]

theorem countP_advance (p : θ → Bool) (ht : ts[i]? = some t) (t' : θ) (new : List θ) :
    (advance ts i t' new).countP p + (if p t then 1 else 0) =
      ts.countP p + (if p t' then 1 else 0) + new.countP p := by
  rw [← sum_map_boole, ← sum_map_boole, ← sum_map_boole]
  exact sum_advance _ ht t' new

/-- Where at most one thread has `p`, a thread that has it is the only one. -/
theorem eq_false_of_countP_le_one (hcount : ts.countP p ≤ 1) (ht : ts[i]? = some t)
    (hp : p t = true) (hu : ts[j]? = some u) (hne : j ≠ i) : p u = false := by
  induction ts generalizing i j with
  | nil => simp at ht
  | cons v ts ih =>
    rw [List.countP_cons] at hcount
    cases i with
    | zero =>
      obtain rfl : v = t := by simpa using ht
      obtain ⟨j, rfl⟩ := Nat.exists_eq_succ_of_ne_zero hne
      have hzero : ts.countP p = 0 := by simpa [hp] using hcount
      simpa using List.countP_eq_zero.1 hzero u (List.mem_of_getElem? (by simpa using hu))
    | succ i =>
      have hti : ts[i]? = some t := by simpa using ht
      have hpos : 0 < ts.countP p := List.countP_pos_iff.2 ⟨t, List.mem_of_getElem? hti, hp⟩
      cases j with
      | zero =>
        obtain rfl : v = u := by simpa using hu
        by_contra hv
        simp only [Bool.not_eq_false] at hv
        rw [if_pos hv] at hcount
        omega
      | succ j => exact ih (by omega) hti (by simpa using hu) (by omega)

theorem eq_of_countP_le_one (hcount : ts.countP p ≤ 1) (ht : t ∈ ts) (hp : p t) (hu : u ∈ ts)
    (hq : p u) : t = u := by
  obtain ⟨i, hi⟩ := List.mem_iff_getElem?.1 ht
  obtain ⟨j, hj⟩ := List.mem_iff_getElem?.1 hu
  by_cases hij : j = i
  · subst hij
    exact Option.some.inj (hi.symm.trans hj)
  · have hfalse := eq_false_of_countP_le_one hcount hi hp hj hij
    rw [hfalse] at hq
    cases hq

end Threads
