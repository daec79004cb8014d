import Dirigent.Threads
import Dirigent.RWMutex

/-!
# Programs with locks

A small language for goroutines that share data and readers-writer locks. A program acts on the
data and goes on with the answer, takes and releases locks, starts goroutines and leaves them
alone, starts goroutines and waits for them, or goes on as another goroutine. The actions, locks
and goroutines are parameters.

* `Prog` — programs, a monad; `Prog.withLock` is a critical section.
* `Lang` — what the actions do and what the goroutines run.
* `Lang.threads` — all interleavings of the goroutines, as a program for `Threads`.
-/

inductive LockOp
  | lock | unlock | rlock | runlock
  deriving DecidableEq, Repr

/-- Programs over locks `L`, actions `A` with answers `R a`, and goroutines `C`. -/
inductive Prog (L A C : Type) (R : A → Type) (α : Type) : Type
  | ret (x : α)
  | act (a : A) (k : R a → Prog L A C R α)
  | sync (o : LockOp) (l : L) (k : Prog L A C R α)
  /-- Start goroutines. -/
  | go (cs : List C) (k : Prog L A C R α)
  /-- Start goroutines and wait until they have finished. -/
  | join (cs : List C) (k : Prog L A C R α)
  /-- Go on as `c`. -/
  | jump (c : C)
  /-- A fault: the goroutine never moves again. -/
  | halt

namespace Prog

variable {L A C : Type} {R : A → Type} {α β : Type}

def bind : Prog L A C R α → (α → Prog L A C R β) → Prog L A C R β
  | .ret x, f => f x
  | .act a k, f => .act a fun r => (k r).bind f
  | .sync o l k, f => .sync o l (k.bind f)
  | .go cs k, f => .go cs (k.bind f)
  | .join cs k, f => .join cs (k.bind f)
  | .jump c, _ => .jump c
  | .halt, _ => .halt

instance : Monad (Prog L A C R) where
  pure := .ret
  bind := .bind

def perform (a : A) : Prog L A C R (R a) := .act a .ret

def lock (l : L) : Prog L A C R Unit := .sync .lock l (.ret ())

def unlock (l : L) : Prog L A C R Unit := .sync .unlock l (.ret ())

def rlock (l : L) : Prog L A C R Unit := .sync .rlock l (.ret ())

def runlock (l : L) : Prog L A C R Unit := .sync .runlock l (.ret ())

/-- `Lock` with a deferred `Unlock`. -/
def withLock (l : L) (p : Prog L A C R α) : Prog L A C R α := do
  lock l
  let x ← p
  unlock l
  pure x

/-- `RLock` with a deferred `RUnlock`. -/
def withRLock (l : L) (p : Prog L A C R α) : Prog L A C R α := do
  rlock l
  let x ← p
  runlock l
  pure x

/-- `go` for each of `cs`. -/
def start (cs : List C) : Prog L A C R Unit := .go cs (.ret ())

/-- `go` for each of `cs` with a `Wait` for all of them. -/
def startAndWait (cs : List C) : Prog L A C R Unit := .join cs (.ret ())

end Prog

/-! ## Goroutines in a pool -/

inductive Phase
  | ready
  /-- In a `Lock`, with the intention to write announced. -/
  | announced
  /-- Waiting for the goroutines it has started. -/
  | waiting
  | finished
  deriving DecidableEq, Repr

/-- A goroutine: what it still has to do, what it was started as, and who waits for it. -/
structure Goroutine (C X : Type) where
  code : X
  op : C
  parent : Option ℕ := none
  phase : Phase := .ready

/-- What goroutines share: the data, the locks, and for each goroutine how many of those it waits
for have not finished. -/
structure Shared (L σ : Type) where
  data : σ
  locks : L → RWMutex
  unfinished : ℕ → ℕ

namespace Shared

variable {L σ : Type} [DecidableEq L]

def setLock (s : Shared L σ) (l : L) (m : RWMutex) : Shared L σ :=
  { s with locks := Function.update s.locks l m }

/-- Goroutine `i` starts to wait for `n` others. -/
def expect (s : Shared L σ) (i n : ℕ) : Shared L σ :=
  { s with unfinished := Function.update s.unfinished i n }

/-- A goroutine that `parent` waits for has finished. -/
def report (s : Shared L σ) : Option ℕ → Shared L σ
  | none => s
  | some p => { s with unfinished := Function.update s.unfinished p (s.unfinished p - 1) }

omit [DecidableEq L] in
@[simp] theorem report_data (s : Shared L σ) (p : Option ℕ) : (s.report p).data = s.data := by
  cases p <;> rfl

omit [DecidableEq L] in
@[simp] theorem report_locks (s : Shared L σ) (p : Option ℕ) : (s.report p).locks = s.locks := by
  cases p <;> rfl

end Shared

/-- What the actions do to the data, what the goroutines run, and which of them may be started
from outside. The choice resolves what an action leaves open. -/
structure Lang (L A C : Type) (R : A → Type) (σ κ : Type) where
  init : σ → Prop
  exec : (a : A) → σ → κ → Option (R a × σ)
  body : C → Prog L A C R Unit
  entry : C → Bool

namespace Lang

variable {L A C : Type} {R : A → Type} {σ κ : Type} [DecidableEq L]

/-- A goroutine that runs `c` and reports to `parent`. -/
def goroutine (P : Lang L A C R σ κ) (parent : Option ℕ) (c : C) :
    Goroutine C (Prog L A C R Unit) :=
  { code := P.body c, op := c, parent := parent }

def step (P : Lang L A C R σ κ) (s : Shared L σ) (i : ℕ) (t : Goroutine C (Prog L A C R Unit))
    (c : κ) :
    Option (Shared L σ × Goroutine C (Prog L A C R Unit) × List
      (Goroutine C (Prog L A C R Unit))) :=
  match t.phase, t.code with
  | .ready, .ret _ => some (s.report t.parent, { t with phase := .finished }, [])
  | .ready, .act a k =>
    (P.exec a s.data c).map fun r => ({ s with data := r.2 }, { t with code := k r.1 }, [])
  | .ready, .sync .lock l _ =>
    ((s.locks l).announce i).map fun m => (s.setLock l m, { t with phase := .announced }, [])
  | .announced, .sync .lock l k =>
    ((s.locks l).acquire i).map fun m =>
      (s.setLock l m, { t with code := k, phase := .ready }, [])
  | .ready, .sync .unlock l k => some (s.setLock l (s.locks l).unlock, { t with code := k }, [])
  | .ready, .sync .rlock l k =>
    ((s.locks l).rlock i).map fun m => (s.setLock l m, { t with code := k }, [])
  | .ready, .sync .runlock l k =>
    some (s.setLock l ((s.locks l).runlock i), { t with code := k }, [])
  | .ready, .go cs k => some (s, { t with code := k }, cs.map (P.goroutine none))
  | .ready, .join cs _ =>
    some (s.expect i cs.length, { t with phase := .waiting }, cs.map (P.goroutine (some i)))
  | .waiting, .join _ k =>
    if s.unfinished i = 0 then some (s, { t with code := k, phase := .ready }, []) else none
  | .ready, .jump c => some (s, { t with code := P.body c, op := c }, [])
  | _, _ => none

/-- A goroutine that is at an action moves on by making it. -/
theorem step_of_act {P : Lang L A C R σ κ} {s s' : Shared L σ} {i : ℕ} {c : κ} {a : A}
    {k : R a → Prog L A C R Unit} {t t' : Goroutine C (Prog L A C R Unit)}
    {new : List (Goroutine C (Prog L A C R Unit))} (hcode : t.code = .act a k)
    (h : P.step s i t c = some (s', t', new)) :
    t.phase = .ready ∧ ∃ r d, P.exec a s.data c = some (r, d) ∧ s' = { s with data := d } ∧
      t' = { t with code := k r } ∧ new = [] := by
  obtain ⟨code, op, parent, phase⟩ := t
  obtain rfl : code = .act a k := hcode
  cases phase with
  | ready =>
    simp only [step, Option.map_eq_some_iff, Prod.mk.injEq] at h
    obtain ⟨⟨r, d⟩, hexec, rfl, rfl, rfl⟩ := h
    exact ⟨rfl, r, d, hexec, rfl, rfl, rfl⟩
  | _ => simp [step] at h

/-- A step leaves the data, except for the action that the goroutine is at. -/
theorem data_of_step {P : Lang L A C R σ κ} {s s' : Shared L σ} {i : ℕ} {c : κ}
    {t t' : Goroutine C (Prog L A C R Unit)} {new : List (Goroutine C (Prog L A C R Unit))}
    (h : P.step s i t c = some (s', t', new)) :
    s'.data = s.data ∨ ∃ a k r, t.code = .act a k ∧ P.exec a s.data c = some (r, s'.data) := by
  obtain ⟨code, op, parent, phase⟩ := t
  cases code with
  | act a k =>
    obtain ⟨-, r, d, hexec, rfl, -⟩ := step_of_act rfl h
    exact .inr ⟨a, k, r, rfl, hexec⟩
  | sync o l k =>
    left
    cases phase <;> cases o <;> simp [step] at h
    all_goals grind [Shared.setLock]
  | _ =>
    left
    cases phase <;> simp [step] at h
    all_goals grind [Shared.report_data, Shared.expect]

/-- All interleavings of the goroutines, with no lock held at the beginning. -/
def threads (P : Lang L A C R σ κ) :
    Threads (Shared L σ) (Goroutine C (Prog L A C R Unit)) C κ where
  init s := P.init s.data ∧ s.locks = (fun _ => {}) ∧ s.unfinished = fun _ => 0
  call c := if P.entry c then some (P.goroutine none c) else none
  step := P.step

end Lang
