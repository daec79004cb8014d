import Dirigent.Prog

/-!
# One goroutine alone

A program run by itself, with the outcome of every action fixed in advance. It returns, or stops
at a lock that is taken, or faults. The goroutines it starts are not run.

* `Prog.solo` — the run, with `Prog.solo_bind` for sequencing.
* `Prog.Returns` — a program that for every state comes back with given locks, or faults, with its
  rules: `returns_bind`, `returns_withLock`, `returns_forM`.
* `Prog.Ensures` — what holds of the result and the state if the program comes back, with its rules:
  `ensures_bind`, `ensures_withLock`, `ensures_forM`.
* `Prog.Achieves` — the program comes back with given results, whatever is chosen at each action,
  with its rules: `achieves_bind`, `achieves_withLock`, `achieves_forM`.
-/

namespace Prog

variable {L A C : Type} {R : A → Type} {σ κ : Type}

/-- Why a goroutine that runs alone does not return. -/
inductive Stop (L : Type)
  /-- It asks for a lock that is taken. -/
  | blocked (l : L)
  /-- It waits for other goroutines, or goes on as another one. -/
  | waiting
  /-- An action cannot happen. -/
  | stuck
  | faulted
  deriving DecidableEq, Repr

variable [DecidableEq L] {α β : Type}

/-- Run a program alone: `env` is the choice at each action. -/
def solo (exec : (a : A) → σ → κ → Option (R a × σ)) (env : A → κ) :
    Prog L A C R α → σ → (L → RWMutex) → Except (Stop L) (α × σ × (L → RWMutex))
  | .ret x, s, m => .ok (x, s, m)
  | .act a k, s, m =>
    match exec a s (env a) with
    | some (r, s') => (k r).solo exec env s' m
    | none => .error .stuck
  | .sync .lock l k, s, m =>
    match (m l).lock 0 with
    | some w => k.solo exec env s (Function.update m l w)
    | none => .error (.blocked l)
  | .sync .unlock l k, s, m => k.solo exec env s (Function.update m l (m l).unlock)
  | .sync .rlock l k, s, m =>
    match (m l).rlock 0 with
    | some w => k.solo exec env s (Function.update m l w)
    | none => .error (.blocked l)
  | .sync .runlock l k, s, m => k.solo exec env s (Function.update m l ((m l).runlock 0))
  | .go _ k, s, m => k.solo exec env s m
  | .join _ _, _, _ => .error .waiting
  | .jump _, _, _ => .error .waiting
  | .halt, _, _ => .error .faulted

variable {exec : (a : A) → σ → κ → Option (R a × σ)} {env : A → κ} {s s' : σ} {m m' : L → RWMutex}
  {p : Prog L A C R α} {f : α → Prog L A C R β} {x : α}

attribute [local simp] Prog.bind solo in
theorem solo_bind : (p >>= f).solo exec env s m =
    (p.solo exec env s m).bind fun r => (f r.1).solo exec env r.2.1 r.2.2 := by
  change (p.bind f).solo exec env s m = _
  induction p generalizing s m with
  | ret v | join cs k ih | jump c | halt => rfl
  | act a k ih =>
    simp
    cases exec a s (env a) with
    | none => rfl
    | some r => exact ih _
  | sync o l k ih =>
    cases o with
    | lock =>
      simp
      cases (m l).lock 0 with
      | none => rfl
      | some w => exact ih
    | unlock | runlock => exact ih
    | rlock =>
      simp
      cases (m l).rlock 0 with
      | none => rfl
      | some w => exact ih
  | go cs k ih => exact ih

theorem solo_bind_of_ok (h : p.solo exec env s m = .ok (x, s', m')) :
    (p >>= f).solo exec env s m = (f x).solo exec env s' m' := by
  rw [solo_bind, h]
  rfl

variable {e : Stop L} {l : L} {m₁ : L → RWMutex} {γ : Type} {xs : List γ}

theorem solo_bind_of_error (h : p.solo exec env s m = .error e) :
    (p >>= f).solo exec env s m = .error e := by
  rw [solo_bind, h]
  rfl

/-- A lock that a writer has. -/
def written : RWMutex := { writer := some 0 }

theorem lock_free : ({} : RWMutex).lock 0 = some written := rfl

theorem lock_written : written.lock 0 = none := rfl

theorem rlock_written : written.rlock 0 = none := rfl

@[simp] theorem solo_pure : (pure x : Prog L A C R α).solo exec env s m = .ok (x, s, m) := rfl

theorem solo_perform {a : A} {r : R a} (h : exec a s (env a) = some (r, s')) :
    (perform a : Prog L A C R (R a)).solo exec env s m = .ok (r, s', m) := by
  simp [perform, solo, h]

theorem solo_lock (hl : m l = {}) :
    (Prog.lock l : Prog L A C R Unit).solo exec env s m =
      .ok ((), s, Function.update m l written) := by
  simp [Prog.lock, solo, hl, lock_free]

theorem solo_unlock (hl : m l = {}) :
    (Prog.unlock l : Prog L A C R Unit).solo exec env s (Function.update m l written) =
      .ok ((), s, m) := by
  have hfree : written.unlock = m l := hl ▸ rfl
  simp only [Prog.unlock, solo, Function.update_self, Function.update_idem, hfree,
    Function.update_eq_self]

theorem solo_withLock (hl : m l = {})
    (h : p.solo exec env s (Function.update m l written) = .ok (x, s', m')) :
    (withLock l p).solo exec env s m = .ok (x, s', Function.update m' l (m' l).unlock) := by
  rw [withLock, solo_bind_of_ok (solo_lock hl), solo_bind_of_ok h]
  rfl

/-- A critical section that is left with the locks it was entered with. -/
theorem solo_withLock_of_ok (hl : m l = {}) (h : p.solo exec env s (Function.update m l written) =
      .ok (x, s', Function.update m l written)) :
    (withLock l p).solo exec env s m = .ok (x, s', m) := by
  have hfree : written.unlock = m l := hl ▸ rfl
  rw [solo_withLock hl h, Function.update_idem, Function.update_self, hfree,
    Function.update_eq_self]

theorem solo_withLock_of_error (hl : m l = {})
    (h : p.solo exec env s (Function.update m l written) = .error e) :
    (withLock l p).solo exec env s m = .error e := by
  rw [withLock, solo_bind_of_ok (solo_lock hl), solo_bind_of_error h]

/-- A critical section inside another on the same lock. -/
theorem solo_withLock_of_written (hl : m l = written) :
    (withLock l p).solo exec env s m = .error (.blocked l) := by
  refine solo_bind_of_error ?_
  simp [Prog.lock, solo, hl, lock_written]

theorem solo_withRLock_of_written (hl : m l = written) :
    (withRLock l p).solo exec env s m = .error (.blocked l) := by
  refine solo_bind_of_error ?_
  simp [Prog.rlock, solo, hl, rlock_written]

/-! ## Programs that come back -/

/-- Alone, from the state `s` and with the locks `m`, the program comes back with the locks `m'`
or faults. -/
def ReturnsFrom (exec : (a : A) → σ → κ → Option (R a × σ)) (env : A → κ) (s : σ) (m : L → RWMutex)
    (p : Prog L A C R α) (m' : L → RWMutex) : Prop :=
  (∃ x s', p.solo exec env s m = .ok (x, s', m')) ∨ p.solo exec env s m = .error .faulted

theorem returnsFrom_bind_of_ok (h : p.solo exec env s m = .ok (x, s', m₁)) :
    ReturnsFrom exec env s m (p >>= f) m' ↔ ReturnsFrom exec env s' m₁ (f x) m' := by
  rw [ReturnsFrom, ReturnsFrom, solo_bind_of_ok h]

theorem not_returnsFrom_of_blocked (l : L) (h : p.solo exec env s m = .error (.blocked l)) :
    ¬ ReturnsFrom exec env s m p m' := by
  rintro (⟨x, s', hok⟩ | herr)
  · rw [h] at hok
    cases hok
  · rw [h] at herr
    cases herr

/-- A critical section that ends with other locks taken. -/
theorem not_returnsFrom_withLock (x : α) (s' : σ) (m₁ : L → RWMutex) (hl : m l = {})
    (hne : Function.update m₁ l (m₁ l).unlock ≠ m')
    (h : p.solo exec env s (Function.update m l written) = .ok (x, s', m₁)) :
    ¬ ReturnsFrom exec env s m (withLock l p) m' := by
  rintro (⟨y, d, hok⟩ | herr)
  · rw [solo_withLock hl h] at hok
    cases hok
    exact hne rfl
  · rw [solo_withLock hl h] at herr
    cases herr

theorem ReturnsFrom.withLock (hl : m l = {})
    (h : ReturnsFrom exec env s (Function.update m l written) p (Function.update m l written)) :
    ReturnsFrom exec env s m (withLock l p) m := by
  rcases h with ⟨x, s', h⟩ | h
  · exact .inl ⟨x, s', solo_withLock_of_ok hl h⟩
  · exact .inr (solo_withLock_of_error hl h)

/-- The program comes back with the locks `m'` or faults, from every state. -/
def Returns (exec : (a : A) → σ → κ → Option (R a × σ)) (env : A → κ) (m : L → RWMutex)
    (p : Prog L A C R α) (m' : L → RWMutex) : Prop :=
  ∀ s, ReturnsFrom exec env s m p m'

theorem returns_ret (x : α) : Returns exec env m (.ret x : Prog L A C R α) m :=
  fun s => .inl ⟨x, s, rfl⟩

theorem returns_halt : Returns exec env m (.halt : Prog L A C R α) m' := fun _ => .inr rfl

theorem returns_perform {a : A} (h : ∀ s, exec a s (env a) ≠ none) :
    Returns exec env m (perform a : Prog L A C R (R a)) m := by
  intro s
  obtain ⟨⟨r, s'⟩, hr⟩ := Option.ne_none_iff_exists'.1 (h s)
  exact .inl ⟨r, s', solo_perform hr⟩

theorem returns_start (cs : List C) : Returns exec env m (start cs : Prog L A C R Unit) m :=
  fun s => .inl ⟨(), s, rfl⟩

theorem returns_lock (hl : m l = {}) :
    Returns exec env m (Prog.lock l : Prog L A C R Unit) (Function.update m l written) :=
  fun s => .inl ⟨(), s, solo_lock hl⟩

theorem returns_unlock (hl : m l = {}) :
    Returns exec env (Function.update m l written) (Prog.unlock l : Prog L A C R Unit) m :=
  fun s => .inl ⟨(), s, solo_unlock hl⟩

theorem returns_bind (hp : Returns exec env m p m₁) (hf : ∀ x, Returns exec env m₁ (f x) m') :
    Returns exec env m (p >>= f) m' := by
  intro s
  rcases hp s with ⟨x, s', h⟩ | h
  · exact (returnsFrom_bind_of_ok h).2 (hf x s')
  · exact .inr (solo_bind_of_error h)

theorem returns_withLock (hl : m l = {})
    (hp : Returns exec env (Function.update m l written) p (Function.update m l written)) :
    Returns exec env m (withLock l p) m := fun s => (hp s).withLock hl

theorem returns_forM {f : γ → Prog L A C R PUnit} (hf : ∀ x ∈ xs, Returns exec env m (f x) m) :
    Returns exec env m (forM xs f) m := by
  induction xs with
  | nil => exact returns_ret PUnit.unit
  | cons x xs ih =>
    rw [List.forM_cons]
    refine returns_bind (hf x List.mem_cons_self) fun _ => ih fun y hy => ?_
    exact hf y (List.mem_cons_of_mem _ hy)

/-! ## What holds afterwards -/

/-- If the program comes back, alone and from the state `s`, its result and the state meet `Q`,
whatever locks are taken. -/
def Ensures (exec : (a : A) → σ → κ → Option (R a × σ)) (env : A → κ) (p : Prog L A C R α) (s : σ)
    (Q : α → σ → Prop) : Prop :=
  ∀ m x s' m', p.solo exec env s m = .ok (x, s', m') → Q x s'

variable {Q : β → σ → Prop} {P : α → σ → Prop}

theorem ensures_ret (h : P x s) : Ensures exec env (.ret x : Prog L A C R α) s P := by
  intro m y s' m' hok
  cases hok
  exact h

theorem ensures_halt : Ensures exec env (.halt : Prog L A C R α) s P := by
  intro m x s' m' hok
  cases hok

theorem ensures_start (cs : List C) {Q : Unit → σ → Prop} (h : Q () s) :
    Ensures exec env (start cs : Prog L A C R Unit) s Q := by
  intro m x s' m' hok
  cases hok
  exact h

theorem ensures_perform {a : A} {Q : R a → σ → Prop}
    (h : ∀ r s', exec a s (env a) = some (r, s') → Q r s') :
    Ensures exec env (perform a : Prog L A C R (R a)) s Q := by
  intro m x s' m' hok
  simp only [perform, solo] at hok
  split at hok
  · next hr =>
    cases hok
    exact h _ _ hr
  · cases hok

theorem ensures_sync (o : LockOp) (l : L) {Q : Unit → σ → Prop} (h : Q () s) :
    Ensures exec env (.sync o l (.ret ()) : Prog L A C R Unit) s Q := by
  intro m x s' m' hok
  cases o with
  | lock | rlock =>
    simp only [solo] at hok
    split at hok
    · cases hok
      exact h
    · cases hok
  | unlock | runlock =>
    cases hok
    exact h

theorem ensures_bind (h : Ensures exec env p s fun x s' => Ensures exec env (f x) s' Q) :
    Ensures exec env (p >>= f) s Q := by
  intro m y s' m' hok
  rw [solo_bind] at hok
  cases hp : p.solo exec env s m with
  | error e =>
    rw [hp] at hok
    cases hok
  | ok r =>
    rw [hp] at hok
    exact h m r.1 r.2.1 r.2.2 hp r.2.2 y s' m' hok

theorem Ensures.mono {P' : α → σ → Prop} (h : Ensures exec env p s P) (hP : ∀ x s, P x s → P' x s) :
    Ensures exec env p s P' := fun m x s' m' hok => hP x s' (h m x s' m' hok)

theorem ensures_withLock (h : Ensures exec env p s P) :
    Ensures exec env (withLock l p) s P :=
  ensures_bind <| ensures_sync .lock l <| ensures_bind <| h.mono fun _ _ hP =>
    ensures_bind <| ensures_sync .unlock l <| ensures_ret hP

/-! ## What is done whatever is chosen -/

/-- What a goroutine that runs alone works with: the data, the locks, and the goroutines that it has
started. -/
structure Alone (L σ C : Type) where
  data : σ
  locks : L → RWMutex
  started : List C := []

/-- Alone, the program comes back, whatever is chosen at each action, and then `Q` holds of its
result and of what it leaves. -/
def Achieves (exec : (a : A) → σ → κ → Option (R a × σ)) :
    Prog L A C R α → Alone L σ C → (α → Alone L σ C → Prop) → Prop
  | .ret x, w, Q => Q x w
  | .act a k, w, Q => ∀ c, ∃ r d, exec a w.data c = some (r, d) ∧
      (k r).Achieves exec { w with data := d } Q
  | .sync .lock l k, w, Q => ∃ mutex, (w.locks l).lock 0 = some mutex ∧
      k.Achieves exec { w with locks := Function.update w.locks l mutex } Q
  | .sync .unlock l k, w, Q =>
    k.Achieves exec { w with locks := Function.update w.locks l (w.locks l).unlock } Q
  | .sync .rlock l k, w, Q => ∃ mutex, (w.locks l).rlock 0 = some mutex ∧
      k.Achieves exec { w with locks := Function.update w.locks l mutex } Q
  | .sync .runlock l k, w, Q =>
    k.Achieves exec { w with locks := Function.update w.locks l ((w.locks l).runlock 0) } Q
  | .go cs k, w, Q => k.Achieves exec { w with started := w.started ++ cs } Q
  | .join _ _, _, _ => False
  | .jump _, _, _ => False
  | .halt, _, _ => False

section

variable {w : Alone L σ C} {P : α → Alone L σ C → Prop} {Q : β → Alone L σ C → Prop}

theorem achieves_bind : (p >>= f).Achieves exec w Q ↔
    p.Achieves exec w fun x w' => (f x).Achieves exec w' Q := by
  change (p.bind f).Achieves exec w Q ↔ _
  induction p generalizing w with
  | ret v | join | jump | halt => rfl
  | act a k ih | go cs k ih => simp only [Prog.bind, Achieves, ih]
  | sync o l k ih => cases o <;> simp only [Prog.bind, Achieves, ih]

theorem Achieves.mono {P' : α → Alone L σ C → Prop} (h : p.Achieves exec w P)
    (hP : ∀ x w, P x w → P' x w) : p.Achieves exec w P' := by
  induction p generalizing w with
  | ret v => exact hP v w h
  | act a k ih =>
    intro c
    obtain ⟨r, d, hexec, hk⟩ := h c
    exact ⟨r, d, hexec, ih r hk⟩
  | sync o l k ih =>
    cases o with
    | lock | rlock =>
      obtain ⟨mutex, hmutex, hk⟩ := h
      exact ⟨mutex, hmutex, ih hk⟩
    | unlock | runlock => exact ih (w := _) h
  | go cs k ih => exact ih (w := _) h
  | join | jump | halt => exact h

/-- Two results at once: what an action does is determined by the choice. -/
theorem Achieves.and {P' : α → Alone L σ C → Prop} (h : p.Achieves exec w P)
    (h' : p.Achieves exec w P') : p.Achieves exec w fun x w' => P x w' ∧ P' x w' := by
  induction p generalizing w with
  | ret v => exact ⟨h, h'⟩
  | act a k ih =>
    intro c
    obtain ⟨r, d, hexec, hk⟩ := h c
    obtain ⟨r', d', hexec', hk'⟩ := h' c
    obtain ⟨rfl, rfl⟩ := Prod.mk.inj (Option.some.inj (hexec.symm.trans hexec'))
    exact ⟨r, d, hexec, ih r hk hk'⟩
  | sync o l k ih =>
    cases o with
    | lock | rlock =>
      obtain ⟨mutex, hmutex, hk⟩ := h
      obtain ⟨mutex', hmutex', hk'⟩ := h'
      obtain rfl := Option.some.inj (hmutex.symm.trans hmutex')
      exact ⟨mutex, hmutex, ih hk hk'⟩
    | unlock | runlock => exact ih (w := _) h h'
  | go cs k ih => exact ih (w := { w with started := w.started ++ cs }) h h'
  | join | jump | halt => exact h

theorem achieves_perform {a : A} {r : R a} {d : σ} {P : R a → Alone L σ C → Prop}
    (hexec : ∀ c, exec a w.data c = some (r, d)) (h : P r { w with data := d }) :
    (perform a : Prog L A C R (R a)).Achieves exec w P := fun c => ⟨r, d, hexec c, h⟩

theorem achieves_choose {a : A} {P : R a → Alone L σ C → Prop}
    (h : ∀ c, ∃ r d, exec a w.data c = some (r, d) ∧ P r { w with data := d }) :
    (perform a : Prog L A C R (R a)).Achieves exec w P := h

theorem achieves_lock {l : L} {P : Unit → Alone L σ C → Prop} (hl : w.locks l = {})
    (h : P () { w with locks := Function.update w.locks l written }) :
    (Prog.lock l : Prog L A C R Unit).Achieves exec w P := by
  refine ⟨written, ?_, h⟩
  rw [hl]
  exact lock_free

theorem update_unlock {m : L → RWMutex} {l : L} (hl : m l = {}) :
    Function.update (Function.update m l written) l (Function.update m l written l).unlock = m := by
  have hfree : written.unlock = m l := hl ▸ rfl
  rw [Function.update_idem, Function.update_self, hfree, Function.update_eq_self]

/-- **Critical sections.** The section leaves the locks as it has found them. -/
theorem achieves_withLock {l : L} (hl : w.locks l = {})
    (h : p.Achieves exec { w with locks := Function.update w.locks l written } fun x w' =>
      w'.locks = Function.update w.locks l written ∧ P x { w' with locks := w.locks }) :
    (withLock l p).Achieves exec w P := by
  refine achieves_bind.2 (achieves_lock hl (achieves_bind.2 (h.mono ?_)))
  rintro x ⟨d, m, started⟩ ⟨rfl, hP⟩
  show P x ⟨d, Function.update (Function.update w.locks l written) l
    (Function.update w.locks l written l).unlock, started⟩
  rw [update_unlock hl]
  exact hP

theorem achieves_withRLock {l : L} (hl : w.locks l = {})
    (h : p.Achieves exec { w with locks := Function.update w.locks l { readers := [0] } }
      fun x w' =>
      w'.locks = Function.update w.locks l { readers := [0] } ∧ P x { w' with locks := w.locks }) :
    (withRLock l p).Achieves exec w P := by
  refine achieves_bind.2 ⟨{ readers := [0] }, ?_, achieves_bind.2 (h.mono ?_)⟩
  · rw [hl]
    rfl
  · rintro x ⟨d, m, started⟩ ⟨rfl, hP⟩
    show P x ⟨d, Function.update (Function.update w.locks l { readers := [0] }) l
      ((Function.update w.locks l { readers := [0] } l).runlock 0), started⟩
    have hfree : ({ readers := [0] } : RWMutex).runlock 0 = w.locks l := by
      rw [hl]
      rfl
    rw [Function.update_idem, Function.update_self, hfree, Function.update_eq_self]
    exact hP

/-- **Loops**: an invariant of what is left of the list. -/
theorem achieves_forM {γ : Type} {f : γ → Prog L A C R PUnit} {I : List γ → Alone L σ C → Prop}
    (hf : ∀ v xs w, I (v :: xs) w → (f v).Achieves exec w fun _ w' => I xs w') {xs : List γ}
    (hw : I xs w) : (forM xs f).Achieves exec w fun _ w' => I [] w' := by
  induction xs generalizing w with
  | nil => exact hw
  | cons v xs ih =>
    rw [List.forM_cons]
    exact achieves_bind.2 ((hf v xs w hw).mono fun _ _ hw' => ih hw')

/-- What is done for every choice is done for one. -/
theorem Achieves.solo (h : p.Achieves exec w P) (env : A → κ) : ∃ x w', P x w' ∧
    p.solo exec env w.data w.locks = .ok (x, w'.data, w'.locks) := by
  induction p generalizing w with
  | ret v => exact ⟨v, w, h, rfl⟩
  | act a k ih =>
    obtain ⟨r, d, hexec, hk⟩ := h (env a)
    obtain ⟨x, w', hP, hsolo⟩ := ih r hk
    refine ⟨x, w', hP, ?_⟩
    simp only [Prog.solo, hexec]
    exact hsolo
  | sync o l k ih =>
    cases o with
    | lock | rlock =>
      obtain ⟨mutex, hmutex, hk⟩ := h
      obtain ⟨x, w', hP, hsolo⟩ := ih hk
      refine ⟨x, w', hP, ?_⟩
      simp only [Prog.solo, hmutex]
      exact hsolo
    | unlock | runlock => exact ih (w := _) h
  | go cs k ih => exact ih (w := { w with started := w.started ++ cs }) h
  | join | jump | halt => exact h.elim

end

end Prog
