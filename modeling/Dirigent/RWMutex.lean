import Mathlib.Tactic

/-!
# Readers-writer locks

The lock of Go's `sync.RWMutex`, for threads known by a number. A writer first announces itself,
which keeps new readers out, and owns the lock once the readers that are in have left. Readers and
writers do not own the lock together.

* `Move` — what a step of one thread can do to the lock, and to the thread's own mode.
* `Guards` — the lock knows who is in it; kept by every move (`Guards.move`).
* `Guards.eq_of_writing`, `Guards.not_reading` — mutual exclusion.
-/

/-- A readers-writer lock: the writer in it, the writer waiting for it, the readers in it. -/
structure RWMutex where
  writer : Option ℕ := none
  waiting : Option ℕ := none
  readers : List ℕ := []
  deriving DecidableEq, Repr

namespace RWMutex

variable {m m' : RWMutex} {i j : ℕ}

/-- The first half of `Lock`: no other writer is in or waiting. -/
def announce (m : RWMutex) (i : ℕ) : Option RWMutex :=
  if m.writer = none ∧ m.waiting = none then some { m with waiting := some i } else none

/-- The second half of `Lock`: the last reader has left. -/
def acquire (m : RWMutex) (i : ℕ) : Option RWMutex :=
  if m.waiting = some i ∧ m.readers = [] then
    some { m with waiting := none, writer := some i } else none

/-- `Lock` without a wait in between. -/
def lock (m : RWMutex) (i : ℕ) : Option RWMutex := (m.announce i).bind fun m' => m'.acquire i

def unlock (m : RWMutex) : RWMutex := { m with writer := none }

def rlock (m : RWMutex) (i : ℕ) : Option RWMutex :=
  if m.writer = none ∧ m.waiting = none then some { m with readers := i :: m.readers } else none

def runlock (m : RWMutex) (i : ℕ) : RWMutex := { m with readers := m.readers.erase i }

theorem lock_eq_some (h : m.lock i = some m') :
    m.writer = none ∧ m.readers = [] ∧ m' = { m with writer := some i } := by
  simp only [lock, announce, acquire, Option.bind_eq_some_iff, Option.ite_none_right_eq_some,
    Option.some.injEq] at h
  obtain ⟨m₁, ⟨⟨hw, hp⟩, rfl⟩, ⟨-, hr⟩, rfl⟩ := h
  exact ⟨hw, hr, by simp [hp]⟩

theorem rlock_eq_some (h : m.rlock i = some m') :
    m.writer = none ∧ m' = { m with readers := i :: m.readers } := by
  simp only [rlock, Option.ite_none_right_eq_some, Option.some.injEq] at h
  exact ⟨h.1.1, h.2.symm⟩

/-! ## Mutual exclusion -/

/-- How a thread is in the lock. -/
inductive Mode
  | out | reading | writing
  deriving DecidableEq, Repr

/-- What a step of thread `i` can do to the lock, with the thread's mode before and after. -/
inductive Move (i : ℕ) : RWMutex → Mode → RWMutex → Mode → Prop
  | keep {m : RWMutex} {a : Mode} : Move i m a m a
  | lock {m m' : RWMutex} : m.lock i = some m' → Move i m .out m' .writing
  | unlock {m : RWMutex} : Move i m .writing m.unlock .out
  | rlock {m m' : RWMutex} : m.rlock i = some m' → Move i m .out m' .reading
  | runlock {m : RWMutex} : Move i m .reading (m.runlock i) .out

/-- Nobody is left waiting by a `Lock` that does not wait. -/
theorem Move.waiting {a a' : Mode} (h : Move i m a m' a') : m'.waiting = m.waiting := by
  cases h with
  | lock hlock => rw [(lock_eq_some hlock).2.2]
  | rlock hrlock => rw [(rlock_eq_some hrlock).2]
  | _ => rfl

/-- The lock knows the modes of all threads, and a writer is alone in it. -/
structure Guards (m : RWMutex) (mode : ℕ → Mode) : Prop where
  writer_iff : ∀ i, m.writer = some i ↔ mode i = .writing
  mem_readers : ∀ i, mode i = .reading → i ∈ m.readers
  alone : m.writer ≠ none → m.readers = []

variable {mode : ℕ → Mode}

theorem guards_init : ({} : RWMutex).Guards fun _ => .out where
  writer_iff i := by simp
  mem_readers i h := by cases h
  alone h := absurd rfl h

/-- A move of one thread keeps the lock in step with the modes. -/
theorem Guards.move {a : Mode} (h : m.Guards mode) (hm : Move i m (mode i) m' a) :
    m'.Guards (Function.update mode i a) := by
  generalize hi : mode i = b at hm
  cases hm with
  | keep =>
    rw [← hi, Function.update_eq_self]
    exact h
  | lock hl =>
    obtain ⟨hw, hr, rfl⟩ := lock_eq_some hl
    refine ⟨fun j => ?_, fun j hj => ?_, fun _ => hr⟩
    · rcases eq_or_ne j i with rfl | hji
      · simp
      · have := h.writer_iff j
        simp_all [hji.symm]
    · rcases eq_or_ne j i with rfl | hji
      · simp at hj
      · exact h.mem_readers j (by rwa [Function.update_of_ne hji] at hj)
  | unlock =>
    refine ⟨fun j => ?_, fun j hj => ?_, fun hw => absurd rfl hw⟩
    · rcases eq_or_ne j i with rfl | hji
      · simp [RWMutex.unlock]
      · have hj := h.writer_iff j
        have hi' := (h.writer_iff i).2 hi
        simp_all [RWMutex.unlock, hji.symm]
    · rcases eq_or_ne j i with rfl | hji
      · simp at hj
      · exact h.mem_readers j (by rwa [Function.update_of_ne hji] at hj)
  | rlock hl =>
    obtain ⟨hw, rfl⟩ := rlock_eq_some hl
    refine ⟨fun j => ?_, fun j hj => ?_, fun hne => absurd hw hne⟩
    · rcases eq_or_ne j i with rfl | hji
      · simp [hw]
      · have := h.writer_iff j
        simp_all
    · rcases eq_or_ne j i with rfl | hji
      · exact List.mem_cons_self
      · exact List.mem_cons_of_mem _ (h.mem_readers j (by rwa [Function.update_of_ne hji] at hj))
  | runlock =>
    refine ⟨fun j => ?_, fun j hj => ?_, fun hne => ?_⟩
    · rcases eq_or_ne j i with rfl | hji
      · have := h.writer_iff j
        simp_all [RWMutex.runlock]
      · simpa [RWMutex.runlock, hji] using h.writer_iff j
    · rcases eq_or_ne j i with rfl | hji
      · simp at hj
      · rw [Function.update_of_ne hji] at hj
        exact (List.mem_erase_of_ne hji).2 (h.mem_readers j hj)
    · simp [RWMutex.runlock, h.alone hne]

theorem Guards.eq_of_writing (h : m.Guards mode) (hi : mode i = .writing)
    (hj : mode j = .writing) : i = j :=
  Option.some.inj (((h.writer_iff i).2 hi).symm.trans ((h.writer_iff j).2 hj))

theorem Guards.not_reading (h : m.Guards mode) (hi : mode i = .writing) : mode j ≠ .reading := by
  intro hj
  have hne : m.writer ≠ none := by simp [(h.writer_iff i).2 hi]
  have hmem := h.mem_readers j hj
  simp [h.alone hne] at hmem

end RWMutex
