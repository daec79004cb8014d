import Dirigent.Held

/-!
# Deadlocks

Goroutines that wait for each other's locks.

**Waiting.** A goroutine waits for a lock if it is at a `Lock` or an `RLock` that cannot happen now
(`Pool.waits`). Which goroutine it waits for is who has the lock; a goroutine that another one waits
for counts as having the other's locks, too (`Pool.holds`). A deadlock is a cycle of waiting
goroutines.

**Order.** If the locks can be ranked so that whoever has a lock waits only for higher ones, there
is no deadlock (`not_deadlocked_of_rank`).

**Parents.** What relates goroutines to those they have started and wait for is kept by every move
(`Related.move`).
-/

variable {L A C : Type} {R : A → Type} {σ κ X : Type}

/-- The lock that the goroutine at position `i` is at and cannot take now. -/
def Goroutine.blockedOn (s : Shared L σ) (i : ℕ) (t : Goroutine C (Prog L A C R Unit)) : Option L :=
  match t.phase, t.code with
  | .ready, .sync .lock l _ => if (s.locks l).announce i = none then some l else none
  | .announced, .sync .lock l _ => if (s.locks l).acquire i = none then some l else none
  | .ready, .sync .rlock l _ => if (s.locks l).rlock i = none then some l else none
  | _, _ => none

/-- `i` is in the lock, as its writer or as a reader. -/
def RWMutex.has (m : RWMutex) (i : ℕ) : Bool := decide (m.writer = some i) || decide (i ∈ m.readers)

/-- What a goroutine at this point may start or go on as. -/
def Prog.starts {α : Type} : Prog L A C R α → List C
  | .go cs _ => cs
  | .join cs _ => cs
  | .jump c => [c]
  | _ => []

namespace Pool

variable (s : Pool (Shared L σ) (Goroutine C (Prog L A C R Unit)))

/-- The lock that goroutine `i` waits for. -/
def waits (i : ℕ) : Option L := s.threads[i]?.bind (Goroutine.blockedOn s.shared i)

/-- Goroutine `j` has the lock, or the goroutine that waits for `j` has it. -/
def holds (j : ℕ) (l : L) : Bool :=
  (s.shared.locks l).has j ||
    (s.threads[j]?.bind Goroutine.parent).any fun p => (s.shared.locks l).has p

/-- Goroutine `i` waits for a lock that `j` has. -/
def waitsFor (i j : ℕ) : Bool := (s.waits i).any (s.holds j)

/-- There is a cycle of goroutines that wait for a lock of the next. -/
def Deadlocked : Prop := ∃ i, Relation.TransGen (fun i j => s.waitsFor i j = true) i i

variable {s}

theorem waitsFor_iff {i j : ℕ} :
    s.waitsFor i j = true ↔ ∃ l, s.waits i = some l ∧ s.holds j l = true :=
  Option.any_eq_true _ _

/-- **Ordered locks.** There is no deadlock if the locks are ranked so that who holds a lock waits
only for higher ones. -/
theorem not_deadlocked_of_rank (rank : L → ℕ)
    (hrank : ∀ i j l l', s.waits i = some l → s.holds j l = true → s.waits j = some l' →
      rank l < rank l') : ¬ s.Deadlocked := by
  -- along a chain the locks that are waited for rise, as far as somebody waits
  have hchain : ∀ i j, Relation.TransGen (fun i j => s.waitsFor i j = true) i j →
      ∀ l l', s.waits i = some l → s.waits j = some l' → rank l < rank l' := by
    intro i j hij
    induction hij with
    | single hij =>
      intro l l' hl hl'
      obtain ⟨m, hm, hholds⟩ := waitsFor_iff.1 hij
      obtain rfl := Option.some.inj (hm.symm.trans hl)
      exact hrank _ _ m l' hm hholds hl'
    | tail _ hjk ih =>
      intro l l' hl hl'
      obtain ⟨m, hm, hholds⟩ := waitsFor_iff.1 hjk
      exact (ih l m hl hm).trans (hrank _ _ m l' hm hholds hl')
  rintro ⟨i, hi⟩
  obtain ⟨j, hij, -⟩ := Relation.TransGen.head'_iff.1 hi
  obtain ⟨l, hl, -⟩ := waitsFor_iff.1 hij
  exact lt_irrefl _ (hchain i i hi l l hl hl)

theorem exists_of_waits {i : ℕ} {l : L} (h : s.waits i = some l) :
    ∃ t k o, s.threads[i]? = some t ∧ t.phase ≠ .finished ∧ t.code = .sync o l k ∧
      (o = .lock ∨ o = .rlock ∧ (s.shared.locks l).rlock i = none) := by
  obtain ⟨t, ht, hblocked⟩ := Option.bind_eq_some_iff.1 h
  obtain ⟨code, op, parent, phase⟩ := t
  simp only [Goroutine.blockedOn] at hblocked
  split at hblocked
  · obtain ⟨-, hl⟩ := Option.ite_none_right_eq_some.1 hblocked
    obtain rfl := Option.some.inj hl
    exact ⟨_, _, .lock, ht, by simp, rfl, .inl rfl⟩
  · obtain ⟨-, hl⟩ := Option.ite_none_right_eq_some.1 hblocked
    obtain rfl := Option.some.inj hl
    exact ⟨_, _, .lock, ht, by simp, rfl, .inl rfl⟩
  · obtain ⟨hnone, hl⟩ := Option.ite_none_right_eq_some.1 hblocked
    obtain rfl := Option.some.inj hl
    exact ⟨_, _, .rlock, ht, by simp, rfl, .inr ⟨rfl, hnone⟩⟩
  · cases hblocked

end Pool

/-! ## What a step does to a lock and to the goroutines -/

section

variable [DecidableEq L] {P : Lang L A C R σ κ} {s s' : Shared L σ} {i : ℕ} {c : κ}
  {t t' : Goroutine C (Prog L A C R Unit)} {new : List (Goroutine C (Prog L A C R Unit))}

theorem Lang.op_of_step (h : P.step s i t c = some (s', t', new)) :
    t.phase ≠ .finished ∧ (t'.op = t.op ∨ t'.op ∈ t.code.starts) ∧
      ∀ u ∈ new, u.op ∈ t.code.starts := by
  obtain ⟨code, op, parent, phase⟩ := t
  simp only [Lang.step] at h
  split at h
  case h_8 =>
    cases h
    refine ⟨by simp, .inl rfl, fun u hu => ?_⟩
    obtain ⟨d, hd, rfl⟩ := List.mem_map.1 hu
    exact hd
  case h_9 =>
    cases h
    refine ⟨by simp, .inl rfl, fun u hu => ?_⟩
    obtain ⟨d, hd, rfl⟩ := List.mem_map.1 hu
    exact hd
  case h_11 =>
    cases h
    exact ⟨by simp, .inr List.mem_cons_self, fun u hu => by cases hu⟩
  case h_10 =>
    obtain ⟨-, h⟩ := Option.ite_none_right_eq_some.1 h
    cases h
    exact ⟨by simp, .inl rfl, fun u hu => by cases hu⟩
  all_goals
    first
    | cases h
    | obtain ⟨_, -, h⟩ := Option.map_eq_some_iff.1 h
      cases h
  all_goals exact ⟨by simp, .inl rfl, fun u hu => by cases hu⟩

/-- A lock that no writer has or waits for stays so, unless the goroutine asks for it. -/
theorem Lang.free_of_step {l : L} (h : P.step s i t c = some (s', t', new))
    (hcode : ∀ k, t.code ≠ .sync .lock l k)
    (hfree : (s.locks l).writer = none ∧ (s.locks l).waiting = none) :
    (s'.locks l).writer = none ∧ (s'.locks l).waiting = none := by
  have hset : ∀ {l' : L} {m : RWMutex}, (l' = l → m.writer = none ∧ m.waiting = none) →
      ((s.setLock l' m).locks l).writer = none ∧ ((s.setLock l' m).locks l).waiting = none := by
    intro l' m hm
    by_cases hl : l' = l
    · subst hl
      simpa [Shared.setLock] using hm rfl
    · simpa [Shared.setLock, Ne.symm hl] using hfree
  obtain ⟨code, op, parent, phase⟩ := t
  simp only [Lang.step] at h
  split at h
  case h_1 =>
    cases h
    rwa [Shared.report_locks]
  case h_3 =>
    obtain ⟨m, -, h⟩ := Option.map_eq_some_iff.1 h
    cases h
    refine hset fun hl => ?_
    subst hl
    exact absurd rfl (hcode _)
  case h_4 =>
    obtain ⟨m, -, h⟩ := Option.map_eq_some_iff.1 h
    cases h
    refine hset fun hl => ?_
    subst hl
    exact absurd rfl (hcode _)
  case h_5 =>
    cases h
    refine hset fun hl => ?_
    subst hl
    exact ⟨rfl, hfree.2⟩
  case h_6 =>
    obtain ⟨m, hm, h⟩ := Option.map_eq_some_iff.1 h
    cases h
    refine hset fun hl => ?_
    subst hl
    rw [(RWMutex.rlock_eq_some hm).2]
    exact hfree
  case h_7 =>
    cases h
    refine hset fun hl => ?_
    subst hl
    exact hfree
  case h_10 =>
    obtain ⟨-, h⟩ := Option.ite_none_right_eq_some.1 h
    cases h
    exact hfree
  all_goals
    first
    | cases h
    | obtain ⟨_, -, h⟩ := Option.map_eq_some_iff.1 h
      cases h
  all_goals exact hfree

end

/-! ## Parents and their goroutines -/

/-- `Q` relates what a goroutine that waits runs to what each goroutine it waits for runs. -/
def Related (Q : C → C → Prop) (gs : List (Goroutine C X)) : Prop :=
  ∀ g ∈ gs, ∀ p, g.owedTo p = true → ∃ gp, gs[p]? = some gp ∧ Q gp.op g.op

section

variable {s s' : Shared L σ} {gs new : List (Goroutine C X)} {g g' : Goroutine C X} {i : ℕ} {c : κ}
  {Q : C → C → Prop} {B : Protocol L A C R X} {exec : (a : A) → σ → κ → Option (R a × σ)}

theorem Related.call (hr : Related Q gs) (hg : g.parent = none) : Related Q (gs ++ [g]) := by
  intro u hu p hp
  rcases List.mem_append.1 hu with hu | hu
  · obtain ⟨gp, hgp, hQ⟩ := hr u hu p hp
    exact ⟨gp, by rw [List.getElem?_append_left (List.getElem?_eq_some_iff.1 hgp).1, hgp], hQ⟩
  · obtain rfl := List.mem_singleton.1 hu
    simp [Goroutine.owedTo, hg] at hp

variable [DecidableEq L]

theorem Family.not_owedTo_of_move (hf : Family s gs) (hg : gs[i]? = some g)
    (hm : B.Moves exec s i g c s' g' new) : ∀ u ∈ gs, u.owedTo i = false := by
  intro u hu
  by_cases hw : g.phase = .waiting
  · cases hm with
    | joined _ _ hz => exact hf.not_owedTo_of_zero hz hu
    | _ => simp_all
  · exact hf.not_owedTo hg hw hu

/-- **Every move keeps what relates goroutines to those they wait for**, if what is started and
waited for is related and a jump stays related. -/
theorem Related.move (hr : Related Q gs) (hf : Family s gs) (hg : gs[i]? = some g)
    (hm : B.Moves exec s i g c s' g' new)
    (hjoin : ∀ cs, B.guard g.code (.join cs) → ∀ d ∈ cs, Q g.op d)
    (hjump : ∀ d, B.guard g.code (.jump d) → ∀ o, Q o g.op → Q o d) :
    Related Q (Threads.advance gs i g' new) := by
  have howed := hf.not_owedTo_of_move hg hm
  -- the parents of the goroutines that were there have not moved
  have hold : ∀ u ∈ gs, ∀ p, u.owedTo p = true →
      ∃ gp, (Threads.advance gs i g' new)[p]? = some gp ∧ Q gp.op u.op := by
    intro u hu p hp
    obtain ⟨gp, hgp, hQ⟩ := hr u hu p hp
    refine ⟨gp, Threads.getElem?_advance_of_ne g' new hgp ?_, hQ⟩
    rintro rfl
    rw [howed u hu] at hp
    cases hp
  intro u hu p hp
  rcases Threads.mem_of_mem_advance hu with rfl | hsame | hnew
  · have hparent : u.parent = g.parent := by
      cases hm <;> rfl
    have hbefore : g.owedTo p = true :=
      Goroutine.owedTo_iff.2 ⟨hparent ▸ (Goroutine.owedTo_iff.1 hp).1, hm.phase_ne⟩
    obtain ⟨gp, hgp, hQ⟩ := hold g (List.mem_of_getElem? hg) p hbefore
    refine ⟨gp, hgp, ?_⟩
    cases hm with
    | jump _ hguard => exact hjump _ hguard _ hQ
    | _ => exact hQ
  · exact hold u hsame p hp
  · clear hu
    cases hm with
    | go =>
      obtain ⟨d, -, rfl⟩ := List.mem_map.1 hnew
      simp [Goroutine.owedTo, Protocol.goroutine] at hp
    | @join cs _ hguard =>
      obtain ⟨d, hd, rfl⟩ := List.mem_map.1 hnew
      obtain rfl : i = p := by simpa [Protocol.goroutine] using (Goroutine.owedTo_iff.1 hp).1
      exact ⟨_, Threads.getElem?_advance_self _ _ hg, hjoin cs hguard d hd⟩
    | _ => cases hnew

/-- A goroutine comes to wait by starting others. -/
theorem Protocol.Moves.guard_of_waiting (hm : B.Moves exec s i g c s' g' new)
    (hw : g'.phase = .waiting) :
    g'.op = g.op ∧ g'.code = g.code ∧ ∃ cs, B.guard g.code (.join cs) := by
  cases hm with
  | join _ hguard => exact ⟨rfl, rfl, _, hguard⟩
  | _ => simp_all

end
