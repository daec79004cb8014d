import Mathlib.Logic.Hydra
import Dirigent.Deadlock

/-!
# Goroutines that come to their end

When do goroutines that wait for each other's locks all finish, in whatever order they are run?

**Progress.** A goroutine that holds a lock and takes no other one is not kept waiting. If all
goroutines of a kind are such, then one of them can move as long as one of them has not finished
(`Unnested.exists_step`). Who has announced that it will write waits only for those who hold the
lock.

**Termination.** With every step, what a goroutine still has to do gets smaller, and in its place
there may come finitely many goroutines of a lower rank (`cutExpand_load`).

* `Machine.Leads` — the events of a kind lead to `P`, whichever of them happen, and until then one
  of them can happen.
* `leads_of_unnested` — both together.
-/

namespace Machine

variable {σ ε : Type*}

/-- The events that `E` picks out lead to `P`: as long as `P` does not hold one of them can happen,
and they cannot go on for ever. -/
inductive Leads (M : Machine σ ε) (E : σ → ε → Prop) (P : σ → Prop) : σ → Prop
  | done {s : σ} : P s → M.Leads E P s
  | step {s : σ} : (∃ e s', E s e ∧ M.next s e = some s') →
      (∀ e s', E s e → M.next s e = some s' → M.Leads E P s') → M.Leads E P s

variable {M : Machine σ ε} {E : σ → ε → Prop} {P : σ → Prop} {s : σ}

theorem Leads.exists_run (h : M.Leads E P s) {tr : List (Step σ ε)} (hrun : M.Run tr s) :
    ∃ tr' s', M.Run (tr' ++ tr) s' ∧ P s' ∧ ∀ st ∈ tr', E st.src st.event := by
  induction h generalizing tr with
  | done hP => exact ⟨[], _, hrun, hP, List.forall_mem_nil _⟩
  | @step s hexists _ ih =>
    obtain ⟨e, s', hE, hnext⟩ := hexists
    obtain ⟨tr', s'', hrun', hP, hevents⟩ := ih e s' hE hnext (hrun.step hnext)
    refine ⟨tr' ++ [⟨s, e, s'⟩], s'', ?_, hP, ?_⟩
    · rw [List.append_assoc]
      exact hrun'
    · exact List.forall_mem_append.2 ⟨hevents, List.forall_mem_singleton.2 hE⟩

/-- Events lead to `P` if they keep an invariant and make something smaller, and one of them can
happen as long as `P` does not hold. -/
theorem leads_of_wellFounded {β : Type*} {r : β → β → Prop} (hr : WellFounded r) (μ : σ → β)
    {I : σ → Prop}
    (hstep : ∀ s e s', I s → E s e → M.next s e = some s' → I s' ∧ r (μ s') (μ s))
    (hprogress : ∀ s, I s → ¬ P s → ∃ e s', E s e ∧ M.next s e = some s') {s : σ} (hs : I s) :
    M.Leads E P s := by
  induction s using (InvImage.wf μ hr).induction with
  | _ s ih =>
    by_cases hP : P s
    · exact .done hP
    · refine .step (hprogress s hs hP) ?_
      intro e s' hE hnext
      obtain ⟨hs', hlt⟩ := hstep s e s' hs hE hnext
      exact ih s' hlt hs'

end Machine

variable {L A C : Type} {R : A → Type} {σ κ : Type}

/-! ## Phases -/

/-- Goroutine `i` has announced that it will write under `l`. -/
def Announced (ts : List (Goroutine C (Prog L A C R Unit))) (l : L) (i : ℕ) : Prop :=
  ∃ t k, ts[i]? = some t ∧ t.phase = .announced ∧ t.code = .sync .lock l k

/-- The phase of the goroutine fits what it is at. -/
def Goroutine.Fits (t : Goroutine C (Prog L A C R Unit)) : Prop :=
  match t.phase with
  | .ready => True
  | .announced => ∃ l k, t.code = .sync .lock l k
  | .waiting => ∃ cs k, t.code = .join cs k
  | .finished => ∃ v, t.code = .ret v

/-- The phases of all goroutines fit, and the locks know who waits to write. -/
structure Phased (s : Pool (Shared L σ) (Goroutine C (Prog L A C R Unit))) : Prop where
  waiting : ∀ l i, (s.shared.locks l).waiting = some i ↔ Announced s.threads l i
  fits : ∀ t ∈ s.threads, t.Fits

section

variable {ts new : List (Goroutine C (Prog L A C R Unit))} {t t' : Goroutine C (Prog L A C R Unit)}
  {i : ℕ}

theorem announced_advance (ht : ts[i]? = some t) (hnew : ∀ u ∈ new, u.phase = .ready) (l : L)
    (j : ℕ) : Announced (Threads.advance ts i t' new) l j ↔
      (j = i ∧ t'.phase = .announced ∧ ∃ k, t'.code = .sync .lock l k) ∨
        (j ≠ i ∧ Announced ts l j) := by
  constructor
  · rintro ⟨u, k, hu, hphase, hcode⟩
    rcases Threads.getElem?_advance ht hu with ⟨rfl, rfl⟩ | ⟨hji, hu⟩ | ⟨-, hu⟩
    · exact .inl ⟨rfl, hphase, k, hcode⟩
    · exact .inr ⟨hji, u, k, hu, hphase, hcode⟩
    · rw [hnew u hu] at hphase
      cases hphase
  · rintro (⟨rfl, hphase, k, hcode⟩ | ⟨hji, u, k, hu, hphase, hcode⟩)
    · exact ⟨t', k, Threads.getElem?_advance_self t' new ht, hphase, hcode⟩
    · exact ⟨u, k, Threads.getElem?_advance_of_ne t' new hu hji, hphase, hcode⟩

theorem fits_advance (hfits : ∀ u ∈ ts, u.Fits) (ht' : t'.Fits)
    (hnew : ∀ u ∈ new, u.phase = .ready) : ∀ u ∈ Threads.advance ts i t' new, u.Fits := by
  intro u hu
  rcases Threads.mem_of_mem_advance hu with rfl | hsame | hu
  · exact ht'
  · exact hfits u hsame
  · rw [Goroutine.Fits, hnew u hu]
    trivial

variable {s s' : Shared L σ}

/-- A step that announces nothing and takes back no announcement. -/
theorem Phased.quiet (h : Phased ⟨s, ts⟩) (ht : ts[i]? = some t)
    (hwaiting : ∀ l, (s'.locks l).waiting = (s.locks l).waiting) (hphase : t.phase ≠ .announced)
    (hphase' : t'.phase ≠ .announced) (ht' : t'.Fits) (hnew : ∀ u ∈ new, u.phase = .ready) :
    Phased ⟨s', Threads.advance ts i t' new⟩ := by
  refine ⟨?_, fits_advance h.fits ht' hnew⟩
  intro l j
  show (s'.locks l).waiting = some j ↔ Announced (Threads.advance ts i t' new) l j
  rw [announced_advance ht hnew, hwaiting, h.waiting l j]
  constructor
  · intro hj
    refine .inr ⟨?_, hj⟩
    rintro rfl
    obtain ⟨u, k, hu, hu', -⟩ := hj
    rw [show ts[j]? = some u from hu] at ht
    cases ht
    exact hphase hu'
  · rintro (⟨-, hannounced, -⟩ | ⟨-, hj⟩)
    · exact absurd hannounced hphase'
    · exact hj

variable [DecidableEq L] {P : Lang L A C R σ κ} {c : κ}

theorem waiting_setLock {l : L} {m : RWMutex} (hm : m.waiting = (s.locks l).waiting) (l' : L) :
    ((s.setLock l m).locks l').waiting = (s.locks l').waiting := by
  by_cases hl : l' = l
  · subst hl
    simpa [Shared.setLock] using hm
  · simp [Shared.setLock, hl]

theorem Phased.announce {l : L} {m : RWMutex} (h : Phased ⟨s, ts⟩) (ht : ts[i]? = some t)
    (hphase : t.phase = .ready) (hm : (s.locks l).announce i = some m)
    (hcode : ∃ k, t.code = .sync .lock l k) :
    Phased ⟨s.setLock l m, Threads.advance ts i { t with phase := .announced } []⟩ := by
  simp only [RWMutex.announce, Option.ite_none_right_eq_some, Option.some.injEq] at hm
  obtain ⟨⟨-, hnone⟩, rfl⟩ := hm
  obtain ⟨k, hk⟩ := hcode
  have hnot : ∀ l', ¬ Announced ts l' i := by
    rintro l' ⟨u, k', hu, hu', -⟩
    rw [ht] at hu
    cases hu
    rw [hphase] at hu'
    cases hu'
  refine ⟨?_, fits_advance h.fits ⟨l, k, hk⟩ (List.forall_mem_nil _)⟩
  intro l' j
  rw [announced_advance ht (List.forall_mem_nil _)]
  by_cases hl : l' = l
  · subst hl
    have hothers : ∀ j, ¬ Announced ts l' j := by
      intro j hj
      rw [(h.waiting l' j).2 hj] at hnone
      cases hnone
    simp [Shared.setLock, hk, hothers, eq_comm]
  · have hw := h.waiting l' j
    simp only [Shared.setLock, Function.update_of_ne hl, hk]
    rw [hw]
    constructor
    · intro hj
      refine .inr ⟨?_, hj⟩
      rintro rfl
      exact hnot l' hj
    · rintro (⟨-, -, k', hk'⟩ | ⟨-, hj⟩)
      · cases hk'
        exact absurd rfl hl
      · exact hj

theorem Phased.acquire {l : L} {m : RWMutex} {k : Prog L A C R Unit} (h : Phased ⟨s, ts⟩)
    (ht : ts[i]? = some t) (hm : (s.locks l).acquire i = some m)
    (hcode : t.code = .sync .lock l k) :
    Phased ⟨s.setLock l m, Threads.advance ts i { t with code := k, phase := .ready } []⟩ := by
  simp only [RWMutex.acquire, Option.ite_none_right_eq_some, Option.some.injEq] at hm
  obtain ⟨⟨hwaiting, -⟩, rfl⟩ := hm
  refine ⟨?_, fits_advance h.fits trivial (List.forall_mem_nil _)⟩
  intro l' j
  rw [announced_advance ht (List.forall_mem_nil _)]
  have hw := h.waiting l' j
  by_cases hl : l' = l
  · subst hl
    have hothers : ∀ j ≠ i, ¬ Announced ts l' j := by
      intro j hj hannounced
      rw [(h.waiting l' j).2 hannounced] at hwaiting
      exact hj (Option.some.inj hwaiting)
    simp only [Shared.setLock, Function.update_self]
    simp
    exact hothers j
  · simp only [Shared.setLock, Function.update_of_ne hl]
    rw [hw]
    constructor
    · intro hj
      refine .inr ⟨?_, hj⟩
      rintro rfl
      obtain ⟨u, k', hu, -, hk'⟩ := hj
      rw [show ts[j]? = some u from hu] at ht
      cases ht
      rw [hk'] at hcode
      cases hcode
      exact hl rfl
    · rintro (⟨-, hphase, -⟩ | ⟨-, hj⟩)
      · cases hphase
      · exact hj

/-- **Every step keeps the phases.** -/
theorem Phased.step (h : Phased ⟨s, ts⟩) (ht : ts[i]? = some t)
    (hstep : P.step s i t c = some (s', t', new)) : Phased ⟨s', Threads.advance ts i t' new⟩ := by
  obtain ⟨code, op, parent, phase⟩ := t
  cases phase with
  | finished => simp [Lang.step] at hstep
  | announced =>
    cases code with
    | sync o l k =>
      cases o with
      | lock =>
        simp only [Lang.step, Option.map_eq_some_iff, Prod.mk.injEq] at hstep
        obtain ⟨m, hm, rfl, rfl, rfl⟩ := hstep
        exact h.acquire ht hm rfl
      | _ => simp [Lang.step] at hstep
    | _ => simp [Lang.step] at hstep
  | waiting =>
    cases code with
    | join cs k =>
      simp only [Lang.step, Option.ite_none_right_eq_some, Option.some.injEq,
        Prod.mk.injEq] at hstep
      obtain ⟨-, rfl, rfl, rfl⟩ := hstep
      exact h.quiet ht (fun _ => rfl) (by simp) (by simp) trivial (List.forall_mem_nil _)
    | _ => simp [Lang.step] at hstep
  | ready =>
    cases code with
    | ret v =>
      simp only [Lang.step, Option.some.injEq, Prod.mk.injEq] at hstep
      obtain ⟨rfl, rfl, rfl⟩ := hstep
      refine h.quiet ht (fun l => ?_) (by simp) (by simp) ⟨v, rfl⟩ (List.forall_mem_nil _)
      rw [Shared.report_locks]
    | act a k =>
      simp only [Lang.step, Option.map_eq_some_iff, Prod.mk.injEq] at hstep
      obtain ⟨⟨r, d⟩, -, rfl, rfl, rfl⟩ := hstep
      exact h.quiet ht (fun _ => rfl) (by simp) (by simp) trivial (List.forall_mem_nil _)
    | sync o l k =>
      cases o with
      | lock =>
        simp only [Lang.step, Option.map_eq_some_iff, Prod.mk.injEq] at hstep
        obtain ⟨m, hm, rfl, rfl, rfl⟩ := hstep
        exact h.announce ht rfl hm ⟨k, rfl⟩
      | unlock | runlock =>
        simp only [Lang.step, Option.some.injEq, Prod.mk.injEq] at hstep
        obtain ⟨rfl, rfl, rfl⟩ := hstep
        exact h.quiet ht (waiting_setLock rfl) (by simp) (by simp) trivial (List.forall_mem_nil _)
      | rlock =>
        simp only [Lang.step, Option.map_eq_some_iff, Prod.mk.injEq] at hstep
        obtain ⟨m, hm, rfl, rfl, rfl⟩ := hstep
        refine h.quiet ht (waiting_setLock ?_) (by simp) (by simp) trivial (List.forall_mem_nil _)
        rw [(RWMutex.rlock_eq_some hm).2]
    | go cs k =>
      simp only [Lang.step, Option.some.injEq, Prod.mk.injEq] at hstep
      obtain ⟨rfl, rfl, rfl⟩ := hstep
      exact h.quiet ht (fun _ => rfl) (by simp) (by simp) trivial (by simp [Lang.goroutine])
    | join cs k =>
      simp only [Lang.step, Option.some.injEq, Prod.mk.injEq] at hstep
      obtain ⟨rfl, rfl, rfl⟩ := hstep
      exact h.quiet ht (fun _ => rfl) (by simp) (by simp) ⟨cs, k, rfl⟩ (by simp [Lang.goroutine])
    | jump d =>
      simp only [Lang.step, Option.some.injEq, Prod.mk.injEq] at hstep
      obtain ⟨rfl, rfl, rfl⟩ := hstep
      exact h.quiet ht (fun _ => rfl) (by simp) (by simp) trivial (List.forall_mem_nil _)
    | halt => simp [Lang.step] at hstep

end

/-! ## What is left to do -/

namespace Prog

/-- What is left of a program after one step. -/
inductive Rest {α : Type} : Prog L A C R α → Prog L A C R α → Prop
  | act {a : A} {k : R a → Prog L A C R α} (r : R a) : Rest (k r) (.act a k)
  | sync {o : LockOp} {l : L} {k : Prog L A C R α} : Rest k (.sync o l k)
  | go {cs : List C} {k : Prog L A C R α} : Rest k (.go cs k)
  | join {cs : List C} {k : Prog L A C R α} : Rest k (.join cs k)

theorem wellFounded_rest {α : Type} : WellFounded
    (Rest (L := L) (A := A) (C := C) (R := R) (α := α)) := by
  refine ⟨fun p => ?_⟩
  induction p with
  | ret v | jump c | halt => exact ⟨_, fun q hq => by cases hq⟩
  | act a k ih => exact ⟨_, fun q hq => by cases hq; exact ih _⟩
  | sync o l k ih | go cs k ih | join cs k ih => exact ⟨_, fun q hq => by cases hq; exact ih⟩

end Prog

/-- What a goroutine still has to do: its rank, its program, and whether it is ready. -/
abbrev Weight (L A C : Type) (R : A → Type) : Type := ℕ × Prog L A C R Unit × ℕ

/-- Lower in rank, or less of the program, or no longer ready. -/
def Lighter : Weight L A C R → Weight L A C R → Prop :=
  Prod.Lex (· < ·) (Prod.Lex Prog.Rest (· < ·))

theorem wellFounded_lighter : WellFounded (Lighter (L := L) (A := A) (C := C) (R := R)) :=
  wellFounded_lt.prod_lex (Prog.wellFounded_rest.prod_lex wellFounded_lt)

section

variable (busy : C → Bool) (rank : C → ℕ)

def Goroutine.weight (t : Goroutine C (Prog L A C R Unit)) : Weight L A C R :=
  (rank t.op, t.code, if t.phase = .ready then 1 else 0)

/-- What the goroutines of a kind still have to do. -/
def load (ts : List (Goroutine C (Prog L A C R Unit))) : Multiset (Weight L A C R) :=
  (ts.map fun t => if busy t.op then {t.weight rank} else 0).sum

variable {busy rank} [DecidableEq L] {P : Lang L A C R σ κ} {s s' : Shared L σ} {c : κ} {i : ℕ}
  {ts new : List (Goroutine C (Prog L A C R Unit))} {t t' : Goroutine C (Prog L A C R Unit)}

/-- After a step a goroutine has less to do, if it goes on only as one of a lower rank. -/
theorem lighter_of_step (h : P.step s i t c = some (s', t', new))
    (hrank : t'.op ∈ t.code.starts → rank t'.op < rank t.op) :
    Lighter (t'.weight rank) (t.weight rank) := by
  obtain ⟨code, op, parent, phase⟩ := t
  have hrest : ∀ {p : Prog L A C R Unit} {n m : ℕ}, Prog.Rest p code →
      Lighter (rank op, p, n) (rank op, code, m) := fun hp => .right _ (.left _ _ hp)
  have hphase : Lighter (rank op, code, 0) (rank op, code, 1) :=
    .right _ (.right _ Nat.zero_lt_one)
  simp only [Lang.step] at h
  split at h
  case h_1 =>
    cases h
    exact hphase
  case h_2 =>
    obtain ⟨r, -, h⟩ := Option.map_eq_some_iff.1 h
    cases h
    exact hrest (.act r.1)
  case h_3 =>
    obtain ⟨m, -, h⟩ := Option.map_eq_some_iff.1 h
    cases h
    exact hphase
  case h_4 =>
    obtain ⟨m, -, h⟩ := Option.map_eq_some_iff.1 h
    cases h
    exact hrest .sync
  case h_6 =>
    obtain ⟨m, -, h⟩ := Option.map_eq_some_iff.1 h
    cases h
    exact hrest .sync
  case h_9 =>
    cases h
    exact hphase
  case h_10 =>
    obtain ⟨-, h⟩ := Option.ite_none_right_eq_some.1 h
    cases h
    exact hrest .join
  case h_11 =>
    cases h
    exact .left _ _ (hrank List.mem_cons_self)
  all_goals cases h
  · exact hrest .sync
  · exact hrest .sync
  · exact hrest .go

omit [DecidableEq L] in
theorem mem_load {w : Weight L A C R} (hw : w ∈ load busy rank ts) :
    ∃ t ∈ ts, busy t.op = true ∧ w = t.weight rank := by
  induction ts with
  | nil => cases hw
  | cons u ts ih =>
    rw [load, List.map_cons, List.sum_cons, Multiset.mem_add] at hw
    rcases hw with hw | hw
    · split_ifs at hw with hu
      · exact ⟨u, List.mem_cons_self, hu, Multiset.mem_singleton.1 hw⟩
      · cases hw
    · obtain ⟨t, ht, hbusy, rfl⟩ := ih hw
      exact ⟨t, List.mem_cons_of_mem _ ht, hbusy, rfl⟩

/-- **A step makes the load smaller**: a goroutine goes, and finitely many lighter ones come. -/
theorem cutExpand_load (ht : ts[i]? = some t) (hbusy : busy t.op = true)
    (hstep : P.step s i t c = some (s', t', new))
    (hrank : ∀ d ∈ t.code.starts, busy d = true → rank d < rank t.op) :
    Relation.CutExpand Lighter (load busy rank (Threads.advance ts i t' new))
      (load busy rank ts) := by
  obtain ⟨-, -, hops⟩ := Lang.op_of_step hstep
  refine ⟨load busy rank [t'] + load busy rank new, t.weight rank, ?_, ?_⟩
  · intro w hw
    rcases Multiset.mem_add.1 hw with hw | hw
    · obtain ⟨u, hu, hbusy', rfl⟩ := mem_load hw
      obtain rfl := List.mem_singleton.1 hu
      exact lighter_of_step hstep fun hstarts => hrank _ hstarts hbusy'
    · obtain ⟨u, hu, hbusy', rfl⟩ := mem_load hw
      exact .left _ _ (hrank _ (hops u hu) hbusy')
  · have hsum := Threads.sum_advance
      (fun t : Goroutine C (Prog L A C R Unit) =>
        if busy t.op then ({t.weight rank} : Multiset (Weight L A C R)) else 0) ht t' new
    rw [if_pos hbusy] at hsum
    rw [load, hsum, load, load, load, List.map_singleton, List.sum_singleton, add_assoc]

end

/-! ## Somebody can move -/

section

variable {P : Lang L A C R σ κ} {busy : C → Bool} {held : ℕ → List (L × Bool)} {i : ℕ}
  {s : Pool (Shared L σ) (Goroutine C (Prog L A C R Unit))} {t : Goroutine C (Prog L A C R Unit)}

variable [DecidableEq L]

/-- The goroutines `busy` hold one lock at a time and wait for nothing else. -/
structure Unnested (busy : C → Bool) (s : Pool (Shared L σ) (Goroutine C (Prog L A C R Unit)))
    (held : ℕ → List (L × Bool)) : Prop where
  booked : Booked (fun _ => true) s.shared.locks held
  phased : Phased s
  /-- Only they hold locks. -/
  holds : ∀ i, held i ≠ [] → ∃ t, s.threads[i]? = some t ∧ busy t.op = true
  takes : ∀ i t o l k, s.threads[i]? = some t → t.code = .sync o l k → o = .lock ∨ o = .rlock →
    held i = [] ∧ busy t.op = true
  returns : ∀ i t v, s.threads[i]? = some t → t.code = .ret v → held i = []
  joins : ∀ t ∈ s.threads, busy t.op = true → ∀ cs k, t.code ≠ .join cs k
  halts : ∀ t ∈ s.threads, busy t.op = true → t.code ≠ .halt

/-- The actions that the goroutines `busy` are at can happen, with a choice that `E` allows. -/
def Willing (P : Lang L A C R σ κ) (busy : C → Bool)
    (E : Pool (Shared L σ) (Goroutine C (Prog L A C R Unit)) → Threads.Event C κ → Prop)
    (s : Pool (Shared L σ) (Goroutine C (Prog L A C R Unit))) : Prop :=
  ∀ i t, s.threads[i]? = some t → busy t.op = true →
    ∃ c, E s (.run i c) ∧ ∀ a k, t.code = .act a k → P.exec a s.shared.data c ≠ none

variable {E : Pool (Shared L σ) (Goroutine C (Prog L A C R Unit)) → Threads.Event C κ → Prop}

theorem Lang.step_ne_none {s : Shared L σ} {c : κ} (hready : t.phase = .ready)
    (hlock : ∀ o l k, t.code = .sync o l k → o ≠ .lock ∧ o ≠ .rlock) (hhalt : t.code ≠ .halt)
    (hact : ∀ a k, t.code = .act a k → P.exec a s.data c ≠ none) : P.step s i t c ≠ none := by
  obtain ⟨code, op, parent, phase⟩ := t
  obtain rfl : phase = .ready := hready
  cases code with
  | act a k =>
    rw [Lang.step]
    exact Option.map_eq_none_iff.not.2 (hact a k rfl)
  | sync o l k =>
    cases o with
    | lock => exact absurd rfl (hlock _ l k rfl).1
    | rlock => exact absurd rfl (hlock _ l k rfl).2
    | unlock | runlock => exact Option.some_ne_none _
  | halt => exact absurd rfl hhalt
  | ret | go | join | jump => exact Option.some_ne_none _

/-- One of the goroutines `busy` can move. -/
def CanMove (P : Lang L A C R σ κ) (busy : C → Bool)
    (E : Pool (Shared L σ) (Goroutine C (Prog L A C R Unit)) → Threads.Event C κ → Prop)
    (s : Pool (Shared L σ) (Goroutine C (Prog L A C R Unit))) : Prop :=
  ∃ i c t, s.threads[i]? = some t ∧ busy t.op = true ∧ E s (.run i c) ∧
    P.step s.shared i t c ≠ none

namespace Unnested

/-- **Who holds a lock can move.** -/
theorem canMove_of_held (h : Unnested busy s held) (hE : Willing P busy E s) (hheld : held i ≠ []) :
    CanMove P busy E s := by
  obtain ⟨t, ht, hbusy⟩ := h.holds i hheld
  have hmem := List.mem_of_getElem? ht
  obtain ⟨c, hc, hact⟩ := hE i t ht hbusy
  have hlock : ∀ o l k, t.code = .sync o l k → o ≠ .lock ∧ o ≠ .rlock := by
    intro o l k hcode
    constructor
    · rintro rfl
      exact hheld (h.takes i t _ l k ht hcode (.inl rfl)).1
    · rintro rfl
      exact hheld (h.takes i t _ l k ht hcode (.inr rfl)).1
  have hready : t.phase = .ready := by
    have hfits := h.phased.fits t hmem
    unfold Goroutine.Fits at hfits
    cases hphase : t.phase with
    | ready => rfl
    | announced =>
      rw [hphase] at hfits
      obtain ⟨l, k, hcode⟩ := hfits
      exact absurd rfl (hlock _ l k hcode).1
    | waiting =>
      rw [hphase] at hfits
      obtain ⟨cs, k, hcode⟩ := hfits
      exact absurd hcode (h.joins t hmem hbusy cs k)
    | finished =>
      rw [hphase] at hfits
      obtain ⟨v, hcode⟩ := hfits
      exact absurd (h.returns i t v ht hcode) hheld
  exact ⟨i, c, t, ht, hbusy, hc, Lang.step_ne_none hready hlock (h.halts t hmem hbusy) hact⟩

theorem canMove_of_has {l : L} (h : Unnested busy s held) (hE : Willing P busy E s)
    (hhas : (s.shared.locks l).writer ≠ none ∨ (s.shared.locks l).readers ≠ []) :
    CanMove P busy E s := by
  rcases hhas with hwriter | hreaders
  · obtain ⟨j, hj⟩ := Option.ne_none_iff_exists'.1 hwriter
    exact h.canMove_of_held (i := j) hE (List.ne_nil_of_mem (h.booked.mem_of_writer rfl hj))
  · obtain ⟨j, hj⟩ := List.exists_mem_of_ne_nil _ hreaders
    exact h.canMove_of_held (i := j) hE (List.ne_nil_of_mem (h.booked.mem_of_reader rfl hj))

/-- Somebody waits to write under the lock: it can move, or those who are in the lock can. -/
theorem canMove_of_waiting {l : L} {j : ℕ} (h : Unnested busy s held) (hE : Willing P busy E s)
    (hwaiting : (s.shared.locks l).waiting = some j) : CanMove P busy E s := by
  obtain ⟨⟨code, op, parent, phase⟩, k, ht, rfl, rfl⟩ := (h.phased.waiting l j).1 hwaiting
  obtain ⟨-, hbusy⟩ := h.takes j _ .lock l k ht rfl (.inl rfl)
  by_cases hreaders : (s.shared.locks l).readers = []
  · obtain ⟨c, hc, -⟩ := hE j _ ht hbusy
    refine ⟨j, c, _, ht, hbusy, hc, ?_⟩
    simp [Lang.step, RWMutex.acquire, hwaiting, hreaders]
  · exact h.canMove_of_has hE (.inr hreaders)

/-- **Progress.** As long as a goroutine has not finished, one of them can move. -/
theorem canMove (h : Unnested busy s held) (hE : Willing P busy E s) (ht : s.threads[i]? = some t)
    (hbusy : busy t.op = true) (hphase : t.phase ≠ .finished) : CanMove P busy E s := by
  have hmem := List.mem_of_getElem? ht
  have hfits := h.phased.fits t hmem
  obtain ⟨c, hc, hact⟩ := hE i t ht hbusy
  obtain ⟨code, op, parent, phase⟩ := t
  cases phase with
  | finished => exact absurd rfl hphase
  | waiting =>
    obtain ⟨cs, k, hcode⟩ := hfits
    exact absurd hcode (h.joins _ hmem hbusy cs k)
  | announced =>
    obtain ⟨l, k, hcode⟩ := hfits
    exact h.canMove_of_waiting hE ((h.phased.waiting l i).2 ⟨_, k, ht, rfl, hcode⟩)
  | ready =>
    by_cases hlock : ∃ o l k, code = .sync o l k ∧ (o = .lock ∨ o = .rlock)
    · -- at a lock: it is free, or somebody is in it or waits to write
      obtain ⟨o, l, k, rfl, ho⟩ := hlock
      by_cases hfree : (s.shared.locks l).writer = none ∧ (s.shared.locks l).waiting = none
      · refine ⟨i, c, _, ht, hbusy, hc, ?_⟩
        rcases ho with rfl | rfl
        · simp [Lang.step, RWMutex.announce, hfree]
        · simp [Lang.step, RWMutex.rlock, hfree]
      · rw [not_and_or] at hfree
        rcases hfree with hwriter | hwaiting
        · exact h.canMove_of_has hE (.inl hwriter)
        · obtain ⟨j, hj⟩ := Option.ne_none_iff_exists'.1 hwaiting
          exact h.canMove_of_waiting hE hj
    · refine ⟨i, c, _, ht, hbusy, hc, Lang.step_ne_none rfl ?_ (h.halts _ hmem hbusy) hact⟩
      intro o l k hcode
      exact ⟨fun ho => hlock ⟨o, l, k, hcode, .inl ho⟩, fun ho => hlock ⟨o, l, k, hcode, .inr ho⟩⟩

end Unnested

/-! ## To the end -/

/-- The goroutines `busy` have finished. -/
def Settled (busy : C → Bool) (s : Pool (Shared L σ) (Goroutine C (Prog L A C R Unit))) : Prop :=
  ∀ t ∈ s.threads, busy t.op = true → t.phase = .finished

/-- **To the end.** The steps of goroutines that hold one lock at a time lead to where they have all
finished, if what they start ranks lower. -/
theorem leads_of_unnested {M : Machine (Pool (Shared L σ) (Goroutine C (Prog L A C R Unit)))
      (Threads.Event C κ)} (hM : M.next = P.threads.machine.next) (rank : C → ℕ)
    {I : Pool (Shared L σ) (Goroutine C (Prog L A C R Unit)) → Prop}
    (hevent : ∀ s e, E s e → ∃ i c t, e = .run i c ∧ s.threads[i]? = some t ∧ busy t.op = true)
    (hI : ∀ s e s', I s → E s e → M.next s e = some s' → I s')
    (hrank : ∀ s, I s → ∀ t ∈ s.threads, busy t.op = true → ∀ d ∈ t.code.starts, busy d = true →
      rank d < rank t.op)
    (hunnested : ∀ s, I s → ∃ held, Unnested busy s held) (hwilling : ∀ s, I s → Willing P busy E s)
    {s : Pool (Shared L σ) (Goroutine C (Prog L A C R Unit))} (hs : I s) :
    M.Leads E (Settled busy) s := by
  refine Machine.leads_of_wellFounded (wellFounded_lighter.cutExpand)
    (fun s => load busy rank s.threads) ?_ ?_ hs
  · rintro ⟨s, ts⟩ e s' hIs hEs hnext
    refine ⟨hI _ e s' hIs hEs hnext, ?_⟩
    obtain ⟨i, c, t, rfl, ht, hbusy⟩ := hevent _ e hEs
    rw [hM] at hnext
    rcases Threads.next_cases hnext with ⟨_, _, hstart, -, -⟩ |
      ⟨i', c', t', d, u, new, hrun, ht', hstep, rfl⟩
    · cases hstart
    · cases hrun
      rw [show ts[i]? = some t from ht] at ht'
      cases ht'
      exact cutExpand_load ht hbusy hstep (hrank _ hIs t (List.mem_of_getElem? ht) hbusy)
  · rintro ⟨s, ts⟩ hIs hnot
    obtain ⟨held, hheld⟩ := hunnested _ hIs
    have hunfinished : ∃ t ∈ ts, busy t.op = true ∧ t.phase ≠ .finished := by
      by_contra hall
      push Not at hall
      exact hnot hall
    obtain ⟨t, hmem, hbusy, hphase⟩ := hunfinished
    obtain ⟨i, hi⟩ := List.getElem?_of_mem hmem
    obtain ⟨j, c, u, hu, -, hEs, hstep⟩ := hheld.canMove (hwilling _ hIs) hi hbusy hphase
    obtain ⟨⟨s', u', new⟩, hr⟩ := Option.ne_none_iff_exists'.1 hstep
    refine ⟨.run j c, ⟨s', Threads.advance ts j u' new⟩, hEs, ?_⟩
    rw [hM]
    show (ts[j]?.bind fun t => (P.step s j t c).map _) = _
    rw [show ts[j]? = some u from hu, Option.bind_some, hr, Option.map_some]

end
