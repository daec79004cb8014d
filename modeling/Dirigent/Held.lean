import Dirigent.Protocol

/-!
# Who holds which lock

Bookkeeping for the locks in a set `T`.

* `Protocol.locks` — the protocol that keeps the list of the locks held. What is given back has
  been held, no lock is held at a jump or at the end, and every step meets further `rules`.
* `Protocol.Keeps` — a program that leaves with the locks it was entered with, with the proof rules
  for sequencing, critical sections and loops.
* `Booked` — the locks know the same holders as the goroutines; kept by every move
  (`Booked.move`), and with it a writer is alone (`Booked.eq_of_mem`).
* `Family` — a goroutine that is waited for has a parent that waits, and the parent knows how many
  of its goroutines have not finished; kept by every move (`Family.move`).
-/

variable {L A C : Type} {R : A → Type} {σ κ X : Type}

section

variable [DecidableEq L]

/-- What a lock operation does to the locks that a goroutine holds, listed with `true` for a write
lock and `false` for a read lock. -/
def LockOp.apply (l : L) (h : List (L × Bool)) : LockOp → List (L × Bool)
  | .lock => (l, true) :: h
  | .unlock => h.erase (l, true)
  | .rlock => (l, false) :: h
  | .runlock => h.erase (l, false)

namespace Protocol

/-- The protocol that watches the locks in `T`. Its state is what the goroutine runs and what it
holds. -/
def locks (T : L → Bool) (rules : C → List (L × Bool) → Label L A C R → Prop) :
    Protocol L A C R (C × List (L × Bool)) where
  start c := (c, [])
  next x
    | .sync o l => (x.1, if T l then o.apply l x.2 else x.2)
    | _ => x
  guard x l := rules x.1 x.2 l ∧ match l with
    | .sync .unlock l => T l = true → (l, true) ∈ x.2
    | .sync .runlock l => T l = true → (l, false) ∈ x.2
    | .jump _ => x.2 = []
    | _ => True
  ended x := x.2 = []

/-- The locks held after taking `l`. -/
def taking (T : L → Bool) (l : L) (b : Bool) (h : List (L × Bool)) : List (L × Bool) :=
  if T l then (l, b) :: h else h

variable {T : L → Bool} {l : L} {b : Bool} {h : List (L × Bool)} {p : L × Bool}

omit [DecidableEq L] in
theorem mem_taking (hp : p ∈ taking T l b h) : p = (l, b) ∨ p ∈ h := by
  unfold taking at hp
  split at hp
  · exact List.mem_cons.1 hp
  · exact .inr hp

omit [DecidableEq L] in
theorem mem_taking_self (hT : T l = true) :
    (l, b) ∈ taking T l b h := by
  simp [taking, hT]

omit [DecidableEq L] in
theorem mem_taking_of_mem (hp : p ∈ h) : p ∈ taking T l b h := by
  unfold taking
  split
  · exact List.mem_cons_of_mem _ hp
  · exact hp

/-! ## Programs that give back what they take -/

section

variable {T : L → Bool} {rules : C → List (L × Bool) → Label L A C R → Prop}
  {allowed : (a : A) → R a → Prop} {α β : Type} {o : C} {h : List (L × Bool)} {p : Prog L A C R α}
  {f : α → Prog L A C R β}

/-- As part of `o` and entered with the locks `h`, the program follows `locks` and leaves with the
same. -/
def Keeps (T : L → Bool) (rules : C → List (L × Bool) → Label L A C R → Prop)
    (allowed : (a : A) → R a → Prop) (o : C) (h : List (L × Bool)) (p : Prog L A C R α) : Prop :=
  (locks T rules).Follows allowed p (fun _ y => y = (o, h)) (o, h)

theorem keeps_ret (v : α) : Keeps T rules allowed o h (.ret v : Prog L A C R α) := rfl

theorem keeps_halt : Keeps T rules allowed o h (.halt : Prog L A C R α) := trivial

theorem keeps_jump {c : C} (hrule : rules o [] (.jump c)) :
    Keeps T rules allowed o [] (.jump c : Prog L A C R α) := ⟨hrule, rfl⟩

theorem keeps_start {cs : List C} (hrule : rules o h (.go cs)) :
    Keeps T rules allowed o h (Prog.start cs : Prog L A C R Unit) := ⟨⟨hrule, trivial⟩, rfl⟩

theorem keeps_startAndWait {cs : List C} (hrule : rules o h (.join cs)) :
    Keeps T rules allowed o h (Prog.startAndWait cs : Prog L A C R Unit) := ⟨⟨hrule, trivial⟩, rfl⟩

theorem keeps_perform {a : A} (hrule : ∀ r, rules o h (.act a r)) :
    Keeps T rules allowed o h (Prog.perform a : Prog L A C R (R a)) :=
  fun r _ => ⟨⟨hrule r, trivial⟩, rfl⟩

/-- The locks are still `h` when the second program starts. -/
theorem Keeps.bind {Q : β → C × List (L × Bool) → Prop} (hp : Keeps T rules allowed o h p)
    (hf : ∀ v, (locks T rules).Follows allowed (f v) Q (o, h)) :
    (locks T rules).Follows allowed (p >>= f) Q (o, h) := by
  refine follows_bind.2 (Follows.mono hp ?_)
  rintro v _ rfl
  exact hf v

theorem keeps_bind (hp : Keeps T rules allowed o h p)
    (hf : ∀ v, Keeps T rules allowed o h (f v)) : Keeps T rules allowed o h (p >>= f) := hp.bind hf

theorem keeps_step {a : A} {f : R a → Prog L A C R β} (hrule : ∀ r, rules o h (.act a r))
    (hf : ∀ r, allowed a r → Keeps T rules allowed o h (f r)) :
    Keeps T rules allowed o h (Prog.perform a >>= f) :=
  follows_perform.2 fun r hr => ⟨⟨hrule r, trivial⟩, hf r hr⟩

section

variable {l : L} {Q : β → C × List (L × Bool) → Prop} {f : Unit → Prog L A C R β}

theorem follows_lock (hrule : rules o h (.sync .lock l))
    (hf : (locks T rules).Follows allowed (f ()) Q (o, taking T l true h)) :
    (locks T rules).Follows allowed (Prog.lock l >>= f) Q (o, h) := by
  exact follows_bind.2 ⟨⟨hrule, trivial⟩, hf⟩

theorem follows_unlock (hrule : rules o (taking T l true h) (.sync .unlock l))
    (hf : (locks T rules).Follows allowed (f ()) Q (o, h)) :
    (locks T rules).Follows allowed (Prog.unlock l >>= f) Q (o, taking T l true h) := by
  have hback : (o, if T l then LockOp.unlock.apply l (taking T l true h) else taking T l true h) =
      (o, h) := by
    cases hT : T l <;> simp [LockOp.apply, taking, hT]
  refine follows_bind.2 ⟨⟨hrule, mem_taking_self⟩, ?_⟩
  change (locks T rules).Follows allowed (f ()) Q
    (o, if T l then LockOp.unlock.apply l (taking T l true h) else taking T l true h)
  rwa [hback]

theorem follows_rlock (hrule : rules o h (.sync .rlock l))
    (hf : (locks T rules).Follows allowed (f ()) Q (o, taking T l false h)) :
    (locks T rules).Follows allowed (Prog.rlock l >>= f) Q (o, h) := by
  exact follows_bind.2 ⟨⟨hrule, trivial⟩, hf⟩

theorem follows_runlock (hrule : rules o (taking T l false h) (.sync .runlock l))
    (hf : (locks T rules).Follows allowed (f ()) Q (o, h)) :
    (locks T rules).Follows allowed (Prog.runlock l >>= f) Q (o, taking T l false h) := by
  have hback : (o, if T l then LockOp.runlock.apply l (taking T l false h)
      else taking T l false h) = (o, h) := by
    cases hT : T l <;> simp [LockOp.apply, taking, hT]
  refine follows_bind.2 ⟨⟨hrule, mem_taking_self⟩, ?_⟩
  change (locks T rules).Follows allowed (f ()) Q
    (o, if T l then LockOp.runlock.apply l (taking T l false h) else taking T l false h)
  rwa [hback]

end

/-- A `Lock` with its `Unlock`. -/
theorem keeps_withLock {l : L} (hlock : rules o h (.sync .lock l))
    (hunlock : rules o (taking T l true h) (.sync .unlock l))
    (hp : Keeps T rules allowed o (taking T l true h) p) :
    Keeps T rules allowed o h (Prog.withLock l p) :=
  follows_lock hlock (hp.bind fun v => follows_unlock hunlock (keeps_ret v))

/-- An `RLock` with its `RUnlock`. -/
theorem keeps_withRLock {l : L} (hlock : rules o h (.sync .rlock l))
    (hunlock : rules o (taking T l false h) (.sync .runlock l))
    (hp : Keeps T rules allowed o (taking T l false h) p) :
    Keeps T rules allowed o h (Prog.withRLock l p) :=
  follows_rlock hlock (hp.bind fun v => follows_runlock hunlock (keeps_ret v))

theorem keeps_forM {γ : Type} {xs : List γ} {f : γ → Prog L A C R PUnit}
    (hf : ∀ v ∈ xs, Keeps T rules allowed o h (f v)) : Keeps T rules allowed o h (forM xs f) := by
  refine follows_forM rfl fun v hv y hy => ?_
  subst hy
  exact hf v hv

end

end Protocol

/-! ## Locks and goroutines agree -/

/-- The locks that the goroutine at each position holds. -/
def Booked.heldAt (gs : List (Goroutine C (C × List (L × Bool)))) : ℕ → List (L × Bool) :=
  Threads.modeAt (fun g => g.code.2) [] gs

omit [DecidableEq L] in
theorem Booked.heldAt_of_getElem? {gs : List (Goroutine C (C × List (L × Bool)))}
    {g : Goroutine C (C × List (L × Bool))} {i : ℕ} (hg : gs[i]? = some g) :
    Booked.heldAt gs i = g.code.2 :=
  Threads.modeAt_of_getElem? hg

/-- The locks `m` in `T` and the goroutines, which hold `h`, agree. -/
structure Booked (T : L → Bool) (m : L → RWMutex) (h : ℕ → List (L × Bool)) : Prop where
  writer : ∀ i l, T l = true → (h i).count (l, true) = if (m l).writer = some i then 1 else 0
  readers : ∀ i l, T l = true → (h i).count (l, false) = (m l).readers.count i
  waiting : ∀ l, T l = true → (m l).waiting ≠ none → (m l).writer = none
  alone : ∀ l, T l = true → (m l).writer ≠ none → (m l).readers = []

namespace Booked

variable {T : L → Bool} {m : L → RWMutex} {h : ℕ → List (L × Bool)} {i j : ℕ} {l : L} {w : RWMutex}
  {b : Bool}

theorem init : Booked T (fun _ : L => ({} : RWMutex)) fun _ => [] where
  writer i l _ := by simp
  readers i l _ := by simp
  waiting l _ h := absurd rfl h
  alone l _ h := absurd rfl h

theorem writer_of_mem (hb : Booked T m h) (hT : T l = true) (hl : (l, true) ∈ h i) :
    (m l).writer = some i := by
  have hpos := List.count_pos_iff.2 hl
  rw [hb.writer i l hT] at hpos
  by_contra hne
  simp [hne] at hpos

theorem reader_of_mem (hb : Booked T m h) (hT : T l = true) (hl : (l, false) ∈ h i) :
    i ∈ (m l).readers :=
  List.count_pos_iff.1 (by rw [← hb.readers i l hT]; exact List.count_pos_iff.2 hl)

theorem mem_of_writer (hb : Booked T m h) (hT : T l = true) (hw : (m l).writer = some i) :
    (l, true) ∈ h i :=
  List.count_pos_iff.1 (by rw [hb.writer i l hT, if_pos hw]; exact Nat.one_pos)

theorem mem_of_reader (hb : Booked T m h) (hT : T l = true) (hr : i ∈ (m l).readers) :
    (l, false) ∈ h i :=
  List.count_pos_iff.1 (by rw [hb.readers i l hT]; exact List.count_pos_iff.2 hr)

/-- **Mutual exclusion.** Where one goroutine has a write lock nobody else has the lock. -/
theorem eq_of_mem (hb : Booked T m h) (hT : T l = true) (hi : (l, true) ∈ h i)
    (hj : (l, b) ∈ h j) : j = i := by
  have hw := hb.writer_of_mem hT hi
  cases b with
  | true => exact Option.some.inj ((hb.writer_of_mem hT hj).symm.trans hw)
  | false =>
    have hr := hb.reader_of_mem hT hj
    rw [hb.alone l hT (by simp [hw])] at hr
    cases hr

theorem skip (hb : Booked T m h) (hT : T l = false) : Booked T (Function.update m l w) h := by
  have hne : ∀ k, T k = true → Function.update m l w k = m k := by
    rintro k hk
    refine Function.update_of_ne ?_ w m
    rintro rfl
    simp [hT] at hk
  refine ⟨fun j k hk => ?_, fun j k hk => ?_, fun k hk => ?_, fun k hk => ?_⟩ <;> rw [hne k hk]
  · exact hb.writer j k hk
  · exact hb.readers j k hk
  · exact hb.waiting k hk
  · exact hb.alone k hk

theorem update (hb : Booked T m h) {h' : List (L × Bool)}
    (hwriter : h'.count (l, true) = if w.writer = some i then 1 else 0)
    (hreaders : h'.count (l, false) = w.readers.count i)
    (hlocks : ∀ k ≠ l, ∀ b, h'.count (k, b) = (h i).count (k, b))
    (hwriters : ∀ j ≠ i, (w.writer = some j ↔ (m l).writer = some j))
    (hothers : ∀ j ≠ i, w.readers.count j = (m l).readers.count j)
    (hwaiting : w.waiting ≠ none → w.writer = none) (halone : w.writer ≠ none → w.readers = []) :
    Booked T (Function.update m l w) (Function.update h i h') := by
  refine ⟨fun j k hk' => ?_, fun j k hk' => ?_, fun k hk' => ?_, fun k hk' => ?_⟩
  · rcases eq_or_ne k l with rfl | hk <;> rcases eq_or_ne j i with rfl | hj
    · simpa using hwriter
    · simpa [hj, hwriters j hj] using hb.writer j k hk'
    · simpa [hk, hlocks k hk] using hb.writer j k hk'
    · simpa [hk, hj] using hb.writer j k hk'
  · rcases eq_or_ne k l with rfl | hk <;> rcases eq_or_ne j i with rfl | hj
    · simpa using hreaders
    · simpa [hj, hothers j hj] using hb.readers j k hk'
    · simpa [hk, hlocks k hk] using hb.readers j k hk'
    · simpa [hk, hj] using hb.readers j k hk'
  · rcases eq_or_ne k l with rfl | hk
    · simpa using hwaiting
    · simpa [hk] using hb.waiting k hk'
  · rcases eq_or_ne k l with rfl | hk
    · simpa using halone
    · simpa [hk] using hb.alone k hk'

theorem announce (hb : Booked T m h) (hT : T l = true) (hw : (m l).announce i = some w) :
    Booked T (Function.update m l w) h := by
  simp only [RWMutex.announce, Option.ite_none_right_eq_some, Option.some.injEq] at hw
  obtain ⟨⟨hnone, -⟩, rfl⟩ := hw
  rw [← Function.update_eq_self i h]
  exact hb.update (hb.writer i l hT) (hb.readers i l hT) (fun _ _ _ => rfl) (fun _ _ => Iff.rfl)
    (fun _ _ => rfl) (fun _ => hnone) (hb.alone l hT)

theorem acquire (hb : Booked T m h) (hT : T l = true) (hw : (m l).acquire i = some w) :
    Booked T (Function.update m l w) (Function.update h i ((l, true) :: h i)) := by
  simp only [RWMutex.acquire, Option.ite_none_right_eq_some, Option.some.injEq] at hw
  obtain ⟨⟨hwaiting, hreaders⟩, rfl⟩ := hw
  have hnone : (m l).writer = none := hb.waiting l hT (by simp [hwaiting])
  have hcount := hb.writer i l hT
  rw [if_neg (by simp [hnone])] at hcount
  refine hb.update (by simp [hcount]) (by simpa using hb.readers i l hT) (fun k hk b => ?_)
    (fun j hj => ?_) (fun _ _ => rfl) (fun h => absurd rfl h) (fun _ => hreaders)
  · exact List.count_cons_of_ne fun heq => hk (Prod.mk.inj heq).1.symm
  · simp [hnone, hj.symm]

theorem unlock (hb : Booked T m h) (hT : T l = true) (hl : (l, true) ∈ h i) :
    Booked T (Function.update m l (m l).unlock)
      (Function.update h i ((h i).erase (l, true))) := by
  have hself := hb.writer_of_mem hT hl
  have hcount := hb.writer i l hT
  rw [if_pos hself] at hcount
  refine hb.update ?_ ?_ (fun k hk b => ?_) (fun j hj => ?_) (fun _ _ => rfl) (fun _ => rfl)
    fun h => absurd rfl h
  · rw [List.count_erase_self, hcount]
    rfl
  · rw [List.count_erase_of_ne (by simp)]
    exact hb.readers i l hT
  · exact List.count_erase_of_ne fun heq => hk (Prod.mk.inj heq).1
  · simp [RWMutex.unlock, hself, hj.symm]

theorem rlock (hb : Booked T m h) (hT : T l = true) (hw : (m l).rlock i = some w) :
    Booked T (Function.update m l w) (Function.update h i ((l, false) :: h i)) := by
  simp only [RWMutex.rlock, Option.ite_none_right_eq_some, Option.some.injEq] at hw
  obtain ⟨⟨hnone, hwaiting⟩, rfl⟩ := hw
  refine hb.update ?_ ?_ (fun k hk b => ?_) (fun _ _ => Iff.rfl) (fun j hj => ?_) (fun _ => hnone)
    fun h => absurd hnone h
  · rw [List.count_cons_of_ne (by simp)]
    exact hb.writer i l hT
  · rw [List.count_cons_self, List.count_cons_self, hb.readers i l hT]
  · exact List.count_cons_of_ne fun heq => hk (Prod.mk.inj heq).1.symm
  · exact List.count_cons_of_ne hj.symm

theorem runlock (hb : Booked T m h) (hT : T l = true) :
    Booked T (Function.update m l ((m l).runlock i))
      (Function.update h i ((h i).erase (l, false))) := by
  refine hb.update ?_ ?_ (fun k hk b => ?_) (fun _ _ => Iff.rfl) (fun j hj => ?_)
    (hb.waiting l hT) fun h => ?_
  · rw [List.count_erase_of_ne (by simp)]
    exact hb.writer i l hT
  · rw [RWMutex.runlock, List.count_erase_self, List.count_erase_self, hb.readers i l hT]
  · exact List.count_erase_of_ne fun heq => hk (Prod.mk.inj heq).1
  · exact List.count_erase_of_ne hj
  · rw [RWMutex.runlock, hb.alone l hT h]
    rfl

variable {rules : C → List (L × Bool) → Label L A C R → Prop}

theorem call {gs : List (Goroutine C (C × List (L × Bool)))} (hb : Booked T m (heldAt gs)) (c : C) :
    Booked T m (heldAt (gs ++ [(Protocol.locks T rules).goroutine none c])) := by
  have happend : heldAt (gs ++ [(Protocol.locks T rules).goroutine none c]) = heldAt gs :=
    Threads.modeAt_append (fun g : Goroutine C (C × List (L × Bool)) => g.code.2) [] rfl
  rwa [happend]

/-- **Every move keeps the books.** -/
theorem move {exec : (a : A) → σ → κ → Option (R a × σ)} {s s' : Shared L σ} {c : κ}
    {gs new : List (Goroutine C (C × List (L × Bool)))} {g g' : Goroutine C (C × List (L × Bool))}
    (hb : Booked T s.locks (heldAt gs)) (hg : gs[i]? = some g)
    (hm : (Protocol.locks T rules).Moves exec s i g c s' g' new) :
    Booked T s'.locks (heldAt (Threads.advance gs i g' new)) := by
  have hnew : ∀ u ∈ new, u.code.2 = [] := by
    cases hm with
    | go | join => exact fun u hu => by obtain ⟨c, -, rfl⟩ := List.mem_map.1 hu; rfl
    | _ => exact fun u hu => by cases hu
  have hadvance : heldAt (Threads.advance gs i g' new) = Function.update (heldAt gs) i g'.code.2 :=
    Threads.modeAt_advance (fun g : Goroutine C (C × List (L × Bool)) => g.code.2) [] hg g' hnew
  rw [hadvance]
  have hself : heldAt gs i = g.code.2 := heldAt_of_getElem? hg
  -- a move that changes no lock and no list
  have hsame : ∀ {h' : List (L × Bool)}, h' = g.code.2 →
      Booked T s.locks (Function.update (heldAt gs) i h') := by
    rintro _ rfl
    rwa [← hself, Function.update_eq_self]
  cases hm with
  | finish =>
    rw [Shared.report_locks]
    exact hsame rfl
  | act | go | join | joined => exact hsame rfl
  | jump _ hguard => exact hsame (Eq.symm hguard.2)
  | @announce l w _ _ hw =>
    change Booked T _ (Function.update (heldAt gs) i g.code.2)
    rw [← hself, Function.update_eq_self]
    cases hT : T l with
    | true => exact hb.announce hT hw
    | false => exact hb.skip hT
  | @acquire l w _ _ hw =>
    cases hT : T l with
    | true => simpa [Protocol.locks, LockOp.apply, Shared.setLock, hT, hself] using hb.acquire hT hw
    | false => simpa [Protocol.locks, Shared.setLock, hT] using (hsame rfl).skip hT
  | @unlock l _ hguard =>
    cases hT : T l with
    | true =>
      have hmem : (l, true) ∈ heldAt gs i := hself ▸ hguard.2 hT
      simpa [Protocol.locks, LockOp.apply, Shared.setLock, hT, hself] using hb.unlock hT hmem
    | false => simpa [Protocol.locks, Shared.setLock, hT] using (hsame rfl).skip hT
  | @rlock l w _ _ hw =>
    cases hT : T l with
    | true => simpa [Protocol.locks, LockOp.apply, Shared.setLock, hT, hself] using hb.rlock hT hw
    | false => simpa [Protocol.locks, Shared.setLock, hT] using (hsame rfl).skip hT
  | @runlock l _ _ =>
    cases hT : T l with
    | true =>
      simpa [Protocol.locks, LockOp.apply, Shared.setLock, hT, hself] using hb.runlock (i := i) hT
    | false => simpa [Protocol.locks, Shared.setLock, hT] using (hsame rfl).skip hT

/-! ### With other protocols that watch, too -/

section

variable {Y : Type} {B : Protocol L A C R X} {B' : Protocol L A C R Y}

/-- The goroutines as `Protocol.locks` sees them. -/
def view (gs : List (Goroutine C (X × (C × List (L × Bool)) × Y))) :
    List (Goroutine C (C × List (L × Bool))) :=
  (gs.map (Goroutine.map Prod.snd)).map (Goroutine.map Prod.fst)

variable {gs : List (Goroutine C (X × (C × List (L × Bool)) × Y))}
  {g : Goroutine C (X × (C × List (L × Bool)) × Y)}

omit [DecidableEq L] in
theorem view_getElem? (hg : gs[i]? = some g) :
    (view gs)[i]? = some ((g.map Prod.snd).map Prod.fst) := by
  simp [view, hg]

omit [DecidableEq L] in
theorem heldAt_view (hg : gs[i]? = some g) :
    heldAt (view gs) i = g.code.2.1.2 := heldAt_of_getElem? (view_getElem? hg)

theorem call_view (hb : Booked T m (heldAt (view gs))) (c : C) :
    Booked T m (heldAt (view
      (gs ++ [(B.prod ((Protocol.locks T rules).prod B')).goroutine none c]))) := by
  have hcall : Booked T m (heldAt (view gs ++ [(Protocol.locks T rules).goroutine none c])) :=
    hb.call c
  rw [view, List.map_append, List.map_append]
  exact hcall

theorem move_view {exec : (a : A) → σ → κ → Option (R a × σ)} {s s' : Shared L σ} {c : κ}
    {gs new : List (Goroutine C (X × (C × List (L × Bool)) × Y))}
    {g g' : Goroutine C (X × (C × List (L × Bool)) × Y)}
    (hb : Booked T s.locks (heldAt (view gs))) (hg : gs[i]? = some g)
    (hm : (B.prod ((Protocol.locks T rules).prod B')).Moves exec s i g c s' g' new) :
    Booked T s'.locks (heldAt (view (Threads.advance gs i g' new))) := by
  rw [view, Threads.map_advance, Threads.map_advance]
  exact hb.move (view_getElem? hg) hm.snd.fst

end

end Booked

end

/-! ## Goroutines that wait for others -/

/-- `p` waits for the goroutine, which has not finished. -/
def Goroutine.owedTo {C X : Type} (p : ℕ) (g : Goroutine C X) : Bool :=
  decide (g.parent = some p) && decide (g.phase ≠ .finished)

theorem Goroutine.owedTo_iff {g : Goroutine C X} {p : ℕ} :
    g.owedTo p = true ↔ g.parent = some p ∧ g.phase ≠ .finished := by
  simp [Goroutine.owedTo]

/-- Parents wait as long as one of their goroutines has not finished, and know how many. -/
structure Family (s : Shared L σ) (gs : List (Goroutine C X)) : Prop where
  unfinished : ∀ p, s.unfinished p = gs.countP (Goroutine.owedTo p)
  waits : ∀ g ∈ gs, ∀ p, g.owedTo p = true → ∃ gp, gs[p]? = some gp ∧ gp.phase = .waiting

namespace Family

variable {s s' : Shared L σ} {gs new : List (Goroutine C X)} {g g' : Goroutine C X} {i p : ℕ}
  {c : κ}

theorem init (hs : s.unfinished = fun _ => 0) : Family s ([] : List (Goroutine C X)) where
  unfinished p := by simp [hs]
  waits g hg := by cases hg

theorem call (hf : Family s gs) (hg : g.parent = none) : Family s (gs ++ [g]) where
  unfinished p := by simp [hf.unfinished p, Goroutine.owedTo, hg]
  waits u hu p hp := by
    rcases List.mem_append.1 hu with hu | hu
    · obtain ⟨gp, hgp, hw⟩ := hf.waits u hu p hp
      exact ⟨gp, by rw [List.getElem?_append_left (List.getElem?_eq_some_iff.1 hgp).1, hgp], hw⟩
    · obtain rfl := List.mem_singleton.1 hu
      simp [Goroutine.owedTo, hg] at hp

theorem not_owedTo (hf : Family s gs) (hg : gs[i]? = some g) (hphase : g.phase ≠ .waiting)
    {u : Goroutine C X} (hu : u ∈ gs) : u.owedTo i = false := by
  by_contra howed
  obtain ⟨gp, hgp, hw⟩ := hf.waits u hu i (by simpa using howed)
  rw [hg] at hgp
  obtain rfl := Option.some.inj hgp
  exact hphase hw

theorem not_owedTo_of_zero (hf : Family s gs) (hz : s.unfinished i = 0) {u : Goroutine C X}
    (hu : u ∈ gs) : u.owedTo i = false := by
  rw [hf.unfinished i, List.countP_eq_zero] at hz
  simpa using hz u hu

theorem keep (hf : Family s gs) (hg : gs[i]? = some g) (hs : s'.unfinished = s.unfinished)
    (howes : ∀ p, g'.owedTo p = g.owedTo p) (howed : ∀ u ∈ gs, u.owedTo i = false)
    (hnew : ∀ u ∈ new, u.parent = none) : Family s' (Threads.advance gs i g' new) where
  unfinished p := by
    have hcount := Threads.countP_advance (Goroutine.owedTo p) hg g' new
    have hzero : new.countP (Goroutine.owedTo p) = 0 :=
      List.countP_eq_zero.2 fun u hu => by simp [Goroutine.owedTo, hnew u hu]
    rw [howes p, hzero] at hcount
    rw [hs, hf.unfinished p]
    omega
  waits u hu p hp := by
    have hold : ∃ v ∈ gs, v.owedTo p = true := by
      rcases Threads.mem_of_mem_advance hu with rfl | hsame | hu
      · exact ⟨g, List.mem_of_getElem? hg, howes p ▸ hp⟩
      · exact ⟨u, hsame, hp⟩
      · simp [Goroutine.owedTo, hnew u hu] at hp
    obtain ⟨v, hv, hvp⟩ := hold
    obtain ⟨gp, hgp, hw⟩ := hf.waits v hv p hvp
    have hpi : p ≠ i := by
      rintro rfl
      simp [howed v hv] at hvp
    exact ⟨gp, Threads.getElem?_advance_of_ne g' new hgp hpi, hw⟩

theorem finish (hf : Family s gs) (hg : gs[i]? = some g) (hready : g.phase = .ready) :
    Family (s.report g.parent) (Threads.advance gs i { g with phase := .finished } []) where
  unfinished p := by
    have hcount := Threads.countP_advance (Goroutine.owedTo p) hg { g with phase := .finished } []
    have hdone : ({ g with phase := .finished } : Goroutine C X).owedTo p = false := by
      simp [Goroutine.owedTo]
    rw [hdone, List.countP_nil] at hcount
    have hreport : (s.report g.parent).unfinished p =
        if g.owedTo p then s.unfinished p - 1 else s.unfinished p := by
      cases hparent : g.parent with
      | none => simp [Shared.report, Goroutine.owedTo, hparent]
      | some q =>
        rcases eq_or_ne p q with rfl | hpq
        · simp [Shared.report, Goroutine.owedTo, hparent, hready]
        · simp [Shared.report, Goroutine.owedTo, hparent, hpq, hpq.symm]
    rw [hreport, hf.unfinished p]
    cases howed : g.owedTo p <;> simp only [howed, Bool.false_eq_true, if_false,
      if_true] at hcount ⊢
      <;> omega
  waits u hu p hp := by
    rcases Threads.mem_of_mem_advance hu with rfl | hsame | hu
    · simp [Goroutine.owedTo] at hp
    · obtain ⟨gp, hgp, hw⟩ := hf.waits u hsame p hp
      have hpi : p ≠ i := by
        rintro rfl
        rw [hg] at hgp
        obtain rfl := Option.some.inj hgp
        simp [hready] at hw
      exact ⟨gp, Threads.getElem?_advance_of_ne _ [] hgp hpi, hw⟩
    · cases hu

theorem join {B : Protocol L A C R X} (hf : Family s gs) (hg : gs[i]? = some g)
    (hready : g.phase = .ready) (cs : List C) :
    Family (s.expect i cs.length) (Threads.advance gs i { g with phase := .waiting }
      (cs.map (B.goroutine (some i)))) where
  unfinished p := by
    have hcount := Threads.countP_advance (Goroutine.owedTo p) hg { g with phase := .waiting }
      (cs.map (B.goroutine (some i)))
    have howes : ({ g with phase := .waiting } : Goroutine C X).owedTo p = g.owedTo p := by
      simp [Goroutine.owedTo, hready]
    rw [howes] at hcount
    have hold := hf.unfinished p
    simp only [Shared.expect]
    rcases eq_or_ne p i with rfl | hpi
    · have hzero : gs.countP (Goroutine.owedTo p) = 0 :=
        List.countP_eq_zero.2 fun u hu => by simp [hf.not_owedTo hg (by simp [hready]) hu]
      have hall : (cs.map (B.goroutine (some p))).countP (Goroutine.owedTo p) = cs.length := by
        rw [List.countP_eq_length.2, List.length_map]
        intro u hu
        obtain ⟨c, -, rfl⟩ := List.mem_map.1 hu
        simp [Goroutine.owedTo, Protocol.goroutine]
      rw [Function.update_self]
      omega
    · have hnone : (cs.map (B.goroutine (some i))).countP (Goroutine.owedTo p) = 0 := by
        refine List.countP_eq_zero.2 fun u hu => ?_
        obtain ⟨c, -, rfl⟩ := List.mem_map.1 hu
        simp [Goroutine.owedTo, Protocol.goroutine, hpi.symm]
      rw [Function.update_of_ne hpi]
      omega
  waits u hu p hp := by
    have hself := Threads.getElem?_advance_self { g with phase := .waiting }
      (cs.map (B.goroutine (some i))) hg
    rcases eq_or_ne p i with rfl | hpi
    · exact ⟨_, hself, rfl⟩
    · have hold : ∃ v ∈ gs, v.owedTo p = true := by
        rcases Threads.mem_of_mem_advance hu with rfl | hsame | hu
        · refine ⟨g, List.mem_of_getElem? hg, ?_⟩
          simpa [Goroutine.owedTo, hready] using hp
        · exact ⟨u, hsame, hp⟩
        · obtain ⟨c, -, rfl⟩ := List.mem_map.1 hu
          simp [Goroutine.owedTo, Protocol.goroutine, hpi.symm] at hp
      obtain ⟨v, hv, hvp⟩ := hold
      obtain ⟨gp, hgp, hw⟩ := hf.waits v hv p hvp
      exact ⟨gp, Threads.getElem?_advance_of_ne _ _ hgp hpi, hw⟩

/-- **Every move keeps the family.** -/
theorem move [DecidableEq L] {B : Protocol L A C R X} {exec : (a : A) → σ → κ → Option (R a × σ)}
    (hf : Family s gs) (hg : gs[i]? = some g) (hm : B.Moves exec s i g c s' g' new) :
    Family s' (Threads.advance gs i g' new) := by
  -- a ready goroutine is owed nothing, and most moves leave what it owes
  have hready : g.phase ≠ .waiting → ∀ u ∈ gs, u.owedTo i = false :=
    fun hphase u hu => hf.not_owedTo hg hphase hu
  have hnone : ∀ u ∈ ([] : List (Goroutine C X)), u.parent = none := fun u hu => by cases hu
  cases hm with
  | finish hp _ => exact hf.finish hg hp
  | act hp _ _ | unlock hp _ | rlock hp _ _ | runlock hp _ | jump hp _ =>
    exact hf.keep hg rfl (fun _ => rfl) (hready (by simp [hp])) hnone
  | announce hp _ _ | acquire hp _ _ =>
    exact hf.keep hg rfl (fun _ => by simp [Goroutine.owedTo, hp]) (hready (by simp [hp])) hnone
  | go hp _ =>
    refine hf.keep hg rfl (fun _ => rfl) (hready (by simp [hp])) fun u hu => ?_
    obtain ⟨c, -, rfl⟩ := List.mem_map.1 hu
    rfl
  | join hp _ => exact hf.join hg hp _
  | joined hp _ hz =>
    exact hf.keep hg rfl (fun _ => by simp [Goroutine.owedTo, hp])
      (fun u hu => hf.not_owedTo_of_zero hz hu) hnone

end Family
