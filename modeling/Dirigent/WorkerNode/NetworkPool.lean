import Dirigent.Threads

/-!
# The pool of networks

Firecracker VMs get their network from a pool. `GetOneConfig` takes the first configuration of the
pool, and makes one itself if there is none; `populate` fills the pool up, at construction and in
goroutines that `GetOneConfig` starts; `GiveUpNetwork` puts a configuration back if there is room.
All of them hold the mutex of the pool while they look at it.

A configuration is known by the number of the `createNetwork` call that made it. Each one is in the
pool once, or handed out, or gone: for every configuration, its entries in the pool and the calls
that have handed it out are one more than the calls that have put it back (`Conserved`). Every
statement keeps this equation, and where a configuration is given up only while it is handed out it
says everything about the pool.

* **`intact_of_run`** — the pool is intact in every run in which no `createNetwork` of `populate`
  fails and configurations are given up only while they are handed out.

Left out: the devices and addresses of a network, and how `createNetwork` fails.
-/

namespace Dirigent.WorkerNode

open Threads

/-- `NetworkPoolManager`. A nil pointer in the pool is `none`. -/
structure NetworkPool where
  maxNetworkPoolSize : ℕ
  pool : List (Option ℕ) := []
  /-- How many networks have been created. -/
  created : ℕ := 0
  deriving DecidableEq, Repr

/-- What `GetOneConfig` returns, and where it comes from. -/
inductive Acquired
  /-- Made on the critical path. -/
  | created (c : ℕ)
  | creationFailed
  /-- The first entry of the pool. -/
  | taken (config : Option ℕ)
  deriving DecidableEq, Repr

def Acquired.config : Acquired → Option ℕ
  | .created c => some c
  | .creationFailed => none
  | .taken config => config

namespace NetworkPool

/-- The pool size is a multiple of 16, and at least 16. -/
def size (networkPoolSize : ℤ) : ℕ :=
  let n := networkPoolSize - networkPoolSize.tmod 16
  if n < 16 then 16 else n.toNat

def createNetwork (np : NetworkPool) : Bool → NetworkPool × Option ℕ
  | true => ({ np with created := np.created + 1 }, some np.created)
  | false => (np, none)

/-- `GetOneConfig`, and whether it starts `populate`. -/
def getOneConfig (np : NetworkPool) (succeeds : Bool) : NetworkPool × Acquired × Bool :=
  match np.pool with
  | [] =>
    match np.createNetwork succeeds with
    | (np', none) => (np', .creationFailed, false)
    | (np', some c) => (np', .created c, true)
  | config :: pool =>
    ({ np with pool := pool }, .taken config, np.pool.length = np.maxNetworkPoolSize / 4)

/-- `GiveUpNetwork`, and whether the configuration is recycled. -/
def giveUpNetwork (np : NetworkPool) (c : ℕ) : NetworkPool × Bool :=
  if np.pool.length < np.maxNetworkPoolSize then ({ np with pool := np.pool ++ [some c] }, true)
  else (np, false)

/-- One iteration of the loop of `populate`. An error is logged, and the nil pointer appended. -/
def populate (np : NetworkPool) (succeeds : Bool) : Option NetworkPool :=
  if np.pool.length < np.maxNetworkPoolSize then
    let (np', config) := np.createNetwork succeeds
    some { np' with pool := np'.pool ++ [config] }
  else none

end NetworkPool

/-! ## The calls -/

namespace NetworkCall

inductive GetOneConfig
  | lock
  | get
  | unlock (a : Acquired)
  | returned (a : Acquired)
  deriving DecidableEq, Repr

inductive GiveUpNetwork
  | lock
  | recycle
  | unlock (recycled : Bool)
  /-- `deleteNetworkNamespaceByName`, `deleteDeviceByName` -/
  | delete
  | returned (recycled : Bool)
  deriving DecidableEq, Repr

inductive Populate
  | lock
  | loop
  | unlock
  | returned
  deriving DecidableEq, Repr

end NetworkCall

inductive NetworkCall
  | getOneConfig (pc : NetworkCall.GetOneConfig)
  | giveUpNetwork (c : ℕ) (pc : NetworkCall.GiveUpNetwork)
  | populate (pc : NetworkCall.Populate)
  deriving DecidableEq, Repr

/-- The pool with its mutex. -/
structure NetworkPoolManager extends NetworkPool where
  mutex : Option ℕ := none
  deriving DecidableEq, Repr

namespace NetworkPoolManager

def lock (np : NetworkPoolManager) (i : ℕ) : Option NetworkPoolManager :=
  if np.mutex = none then some { np with mutex := some i } else none

def unlock (np : NetworkPoolManager) : NetworkPoolManager := { np with mutex := none }

end NetworkPoolManager

namespace NetworkCall

/-- A statement of thread `i`. The choice says whether a `createNetwork` succeeds. -/
def step (np : NetworkPoolManager) (i : ℕ) (succeeds : Bool) :
    NetworkCall → Option (NetworkPoolManager × NetworkCall × List NetworkCall)
  | .getOneConfig .lock => (np.lock i).map (·, .getOneConfig .get, [])
  | .getOneConfig .get =>
    let (pool, a, repopulate) := np.toNetworkPool.getOneConfig succeeds
    some ({ np with toNetworkPool := pool }, .getOneConfig (.unlock a),
      if repopulate then [.populate .lock] else [])
  | .getOneConfig (.unlock a) => some (np.unlock, .getOneConfig (.returned a), [])
  | .getOneConfig (.returned _) => none
  | .giveUpNetwork c .lock => (np.lock i).map (·, .giveUpNetwork c .recycle, [])
  | .giveUpNetwork c .recycle =>
    let (pool, recycled) := np.toNetworkPool.giveUpNetwork c
    some ({ np with toNetworkPool := pool }, .giveUpNetwork c (.unlock recycled), [])
  | .giveUpNetwork c (.unlock true) => some (np.unlock, .giveUpNetwork c (.returned true), [])
  | .giveUpNetwork c (.unlock false) => some (np.unlock, .giveUpNetwork c .delete, [])
  | .giveUpNetwork c .delete => some (np, .giveUpNetwork c (.returned false), [])
  | .giveUpNetwork _ (.returned _) => none
  | .populate .lock => (np.lock i).map (·, .populate .loop, [])
  | .populate .loop =>
    match np.toNetworkPool.populate succeeds with
    | some pool => some ({ np with toNetworkPool := pool }, .populate .loop, [])
    | none => some (np, .populate .unlock, [])
  | .populate .unlock => some (np.unlock, .populate .returned, [])
  | .populate .returned => none

/-- The calls from outside; `populate` is started by the constructor and by `GetOneConfig`. -/
def isCall : NetworkCall → Bool
  | .getOneConfig pc => pc = .lock
  | .giveUpNetwork _ pc => pc = .lock
  | .populate _ => false

/-- `GetOneConfig` has the configuration `c`. -/
def got (c : ℕ) : NetworkCall → Bool
  | .getOneConfig (.unlock a) | .getOneConfig (.returned a) => a.config = some c
  | _ => false

def givesUp (c : ℕ) : NetworkCall → Bool
  | .giveUpNetwork c' _ => c' = c
  | _ => false

/-- `GiveUpNetwork` has put the configuration `c` back. -/
def recycled (c : ℕ) : NetworkCall → Bool
  | .giveUpNetwork c' (.unlock true) | .giveUpNetwork c' (.returned true) => c' = c
  | _ => false

end NetworkCall

def networkCalls : Threads NetworkPoolManager NetworkCall NetworkCall Bool where
  init np := np.pool = [] ∧ np.created = 0 ∧ np.mutex = none
  call t := if t.isCall then some t else none
  step np i t succeeds := t.step np i succeeds

/-- All interleavings of any number of calls, after `NewNetworkPoolManager`: the thread 0 is the
`populate` of the constructor, and the calls come in when it has returned. -/
def networkPool (networkPoolSize : ℤ) :
    Machine (Pool NetworkPoolManager NetworkCall) (Threads.Event NetworkCall Bool) where
  init s := s = ⟨{ maxNetworkPoolSize := NetworkPool.size networkPoolSize }, [.populate .lock]⟩
  next s e :=
    match e with
    | .start _ =>
      if s.threads[0]? = some (.populate .returned) then networkCalls.machine.next s e else none
    | .run _ _ => networkCalls.machine.next s e

/-! ## The property -/

/-- More calls have handed the configuration out than have been made to give it up. -/
def HandedOut (threads : List NetworkCall) (c : ℕ) : Prop :=
  threads.countP (·.givesUp c) < threads.countP (·.got c)

instance (threads : List NetworkCall) (c : ℕ) : Decidable (HandedOut threads c) :=
  inferInstanceAs (Decidable (_ < _))

/-- Network pool integrity. -/
structure Intact (s : Pool NetworkPoolManager NetworkCall) : Prop where
  length_le : s.shared.pool.length ≤ s.shared.maxNetworkPoolSize
  not_nil : none ∉ s.shared.pool
  nodup : s.shared.pool.Nodup
  not_handedOut : ∀ c, HandedOut s.threads c → some c ∉ s.shared.pool
  /-- `GetOneConfig` returns nil only where its own `createNetwork` has failed. -/
  failed_of_nil : ∀ a, .getOneConfig (.returned a) ∈ s.threads → a.config = none →
    a = .creationFailed

/-- The steps that keep the pool intact: the `createNetwork` calls of `populate` succeed, and what
is given up is handed out. -/
def KeepsIntact (t : Machine.Step (Pool NetworkPoolManager NetworkCall)
    (Threads.Event NetworkCall Bool)) : Prop :=
  match t.event with
  | .start (.giveUpNetwork c _) => HandedOut t.src.threads c
  | .run i false => t.src.threads[i]? = some (.populate .loop) →
      t.src.shared.maxNetworkPoolSize ≤ t.src.shared.pool.length
  | _ => True

instance : DecidablePred KeepsIntact := fun
  | ⟨s, .start (.giveUpNetwork c _), _⟩ => inferInstanceAs (Decidable (HandedOut s.threads c))
  | ⟨_, .start (.getOneConfig _), _⟩ | ⟨_, .start (.populate _), _⟩ | ⟨_, .run _ true, _⟩ =>
    .isTrue trivial
  | ⟨s, .run i false, _⟩ => inferInstanceAs (Decidable (s.threads[i]? = some (.populate .loop) →
      s.shared.maxNetworkPoolSize ≤ s.shared.pool.length))

/-! ## What one step does -/

/-- The entries of `c` that are accounted for by its creation. -/
def NetworkPool.made (np : NetworkPool) (c : ℕ) : ℕ := if c < np.created then 1 else 0

/-- Every configuration is in the pool, or handed out and not put back. -/
structure Conserved (s : Pool NetworkPoolManager NetworkCall) (c : ℕ) : Prop where
  entries : s.shared.pool.count (some c) + s.threads.countP (·.got c) =
    s.shared.made c + s.threads.countP (·.recycled c)
  givesUp_le : s.threads.countP (·.givesUp c) ≤ s.threads.countP (·.got c)

/-- What a statement of a call does to the pool and to the thread. -/
structure Effect (np np' : NetworkPoolManager) (t t' : NetworkCall) (c : ℕ) : Prop where
  entries : np'.pool.count (some c) + (if t'.got c then 1 else 0) + (if t.recycled c then 1 else 0)
      + np.made c =
    np.pool.count (some c) + (if t.got c then 1 else 0) +
      (if t'.recycled c then 1 else 0) + np'.made c
  givesUp : t'.givesUp c = t.givesUp c
  got : t.got c → t'.got c

section

variable {np np' : NetworkPoolManager} {i c : ℕ} {succeeds : Bool} {t t' : NetworkCall}
  {new : List NetworkCall}

theorem NetworkPool.getOneConfig_entries (np : NetworkPool) (succeeds : Bool) (c : ℕ) :
    (np.getOneConfig succeeds).1.pool.count (some c)
        + (if (np.getOneConfig succeeds).2.1.config = some c then 1 else 0) + np.made c =
      np.pool.count (some c) + (np.getOneConfig succeeds).1.made c := by
  unfold getOneConfig createNetwork
  cases hpool : np.pool with
  | nil =>
    cases succeeds with
    | false => simp [hpool, Acquired.config]
    | true => grind [Acquired.config, made]
  | cons config pool => grind [Acquired.config, made]

theorem NetworkPool.giveUpNetwork_entries (np : NetworkPool) (c' c : ℕ) :
    (np.giveUpNetwork c').1.pool.count (some c) =
      np.pool.count (some c) + if (np.giveUpNetwork c').2 && c' = c then 1 else 0 := by
  unfold giveUpNetwork
  split <;> simp [List.count_append, List.count_singleton]

theorem NetworkPool.populate_entries {np np' : NetworkPool} (h : np.populate succeeds = some np')
    (c : ℕ) : np'.pool.count (some c) + np.made c = np.pool.count (some c) + np'.made c := by
  simp only [populate, Option.ite_none_right_eq_some, Option.some.injEq] at h
  obtain ⟨-, rfl⟩ := h
  cases succeeds with
  | false | true => grind [createNetwork, made]

theorem NetworkPoolManager.lock_eq_some (h : np.lock i = some np') :
    np'.toNetworkPool = np.toNetworkPool := by
  unfold NetworkPoolManager.lock at h
  split at h
  · cases h
    rfl
  · cases h

theorem Effect.of_eq (hpool : np'.toNetworkPool = np.toNetworkPool) (hgot : t'.got c = t.got c)
    (hrecycled : t'.recycled c = t.recycled c) (hgivesUp : t'.givesUp c = t.givesUp c) :
    Effect np np' t t' c := by
  refine ⟨?_, hgivesUp, fun h => hgot ▸ h⟩
  rw [hpool, hgot, hrecycled]

theorem step_effect (h : t.step np i succeeds = some (np', t', new)) (c : ℕ) :
    Effect np np' t t' c ∧ ∀ u ∈ new, u = .populate .lock := by
  have hlock : ∀ {u : NetworkCall}, (np.lock i).map (·, u, ([] : List NetworkCall)) =
    some (np', t', new) →
      np'.toNetworkPool = np.toNetworkPool ∧ t' = u ∧ new = [] := by
    intro u h
    simp only [Option.map_eq_some_iff, Prod.mk.injEq] at h
    obtain ⟨np'', hlock, rfl, rfl, rfl⟩ := h
    exact ⟨NetworkPoolManager.lock_eq_some hlock, rfl, rfl⟩
  cases t with
  | getOneConfig pc =>
    cases pc with
    | lock =>
      obtain ⟨hpool, rfl, rfl⟩ := hlock h
      exact ⟨.of_eq hpool rfl rfl rfl, List.forall_mem_nil _⟩
    | get =>
      simp only [NetworkCall.step, Option.some.injEq, Prod.mk.injEq] at h
      obtain ⟨rfl, rfl, rfl⟩ := h
      have hentries := np.getOneConfig_entries succeeds c
      refine ⟨⟨?_, rfl, nofun⟩, ?_⟩
      · simp only [NetworkCall.got, NetworkCall.recycled, decide_eq_true_eq,
          Bool.false_eq_true, if_false]
        omega
      · intro u hu
        split at hu
        · exact List.mem_singleton.1 hu
        · cases hu
    | unlock a =>
      cases h
      exact ⟨.of_eq rfl rfl rfl rfl, List.forall_mem_nil _⟩
    | returned a => cases h
  | giveUpNetwork c' pc =>
    cases pc with
    | lock =>
      obtain ⟨hpool, rfl, rfl⟩ := hlock h
      exact ⟨.of_eq hpool rfl rfl rfl, List.forall_mem_nil _⟩
    | recycle =>
      simp only [NetworkCall.step, Option.some.injEq, Prod.mk.injEq] at h
      obtain ⟨rfl, rfl, rfl⟩ := h
      have hentries := np.giveUpNetwork_entries c' c
      have hmade : (np.toNetworkPool.giveUpNetwork c').1.made c = np.made c := by
        unfold NetworkPool.giveUpNetwork
        split <;> rfl
      refine ⟨⟨?_, rfl, nofun⟩, List.forall_mem_nil _⟩
      cases hrecycled : (np.toNetworkPool.giveUpNetwork c').2 <;>
        simp_all [NetworkCall.got, NetworkCall.recycled]
    | unlock recycled =>
      cases recycled <;> cases h <;> exact ⟨.of_eq rfl rfl rfl rfl, List.forall_mem_nil _⟩
    | delete =>
      cases h
      exact ⟨.of_eq rfl rfl rfl rfl, List.forall_mem_nil _⟩
    | returned recycled => cases h
  | populate pc =>
    cases pc with
    | lock =>
      obtain ⟨hpool, rfl, rfl⟩ := hlock h
      exact ⟨.of_eq hpool rfl rfl rfl, List.forall_mem_nil _⟩
    | loop =>
      simp only [NetworkCall.step] at h
      split at h
      next pool hpool =>
        cases h
        have hentries := NetworkPool.populate_entries hpool c
        refine ⟨⟨?_, rfl, id⟩, List.forall_mem_nil _⟩
        simp only [NetworkCall.got, NetworkCall.recycled, Bool.false_eq_true, if_false]
        omega
      next =>
        cases h
        exact ⟨.of_eq rfl rfl rfl rfl, List.forall_mem_nil _⟩
    | unlock =>
      cases h
      exact ⟨.of_eq rfl rfl rfl rfl, List.forall_mem_nil _⟩
    | returned => cases h

/-- The pool by itself. -/
structure NetworkPool.Sound (np : NetworkPool) : Prop where
  length_le : np.pool.length ≤ np.maxNetworkPoolSize
  not_nil : none ∉ np.pool

/-- No nil pointer has come from the pool. -/
def NetworkCall.isSound : NetworkCall → Bool
  | .getOneConfig (.unlock a) | .getOneConfig (.returned a) => a ≠ .taken none
  | _ => true

theorem NetworkPool.Sound.getOneConfig {np : NetworkPool} (h : np.Sound) (succeeds : Bool) :
    (np.getOneConfig succeeds).1.Sound ∧ (np.getOneConfig succeeds).2.1 ≠ .taken none := by
  obtain ⟨hlength, hnil⟩ := h
  unfold NetworkPool.getOneConfig NetworkPool.createNetwork
  cases hpool : np.pool with
  | nil =>
    cases succeeds with
    | false => exact ⟨⟨hlength, hnil⟩, nofun⟩
    | true =>
      rw [hpool] at hlength hnil
      exact ⟨⟨hlength, hnil⟩, nofun⟩
  | cons config pool =>
    rw [hpool, List.mem_cons, not_or] at hnil
    rw [hpool, List.length_cons] at hlength
    refine ⟨⟨by dsimp only; omega, hnil.2⟩, ?_⟩
    intro heq
    exact hnil.1 (Acquired.taken.inj heq).symm

theorem NetworkPool.Sound.giveUpNetwork {np : NetworkPool} (h : np.Sound) (c : ℕ) :
    (np.giveUpNetwork c).1.Sound := by
  unfold NetworkPool.giveUpNetwork
  split
  next hlt =>
    refine ⟨?_, ?_⟩
    · simpa using hlt
    · simpa using h.not_nil
  next => exact h

theorem NetworkPool.Sound.populate {np np' : NetworkPool} (h : np.Sound)
    (hpopulate : np.populate succeeds = some np')
    (hsucceeds : succeeds = false → np.maxNetworkPoolSize ≤ np.pool.length) : np'.Sound := by
  simp only [NetworkPool.populate, Option.ite_none_right_eq_some, Option.some.injEq] at hpopulate
  obtain ⟨hlt, rfl⟩ := hpopulate
  cases succeeds with
  | false => exact absurd (hsucceeds rfl) (by omega)
  | true =>
    refine ⟨?_, ?_⟩
    · simpa [NetworkPool.createNetwork] using hlt
    · simpa [NetworkPool.createNetwork] using h.not_nil

theorem step_sound (h : t.step np i succeeds = some (np', t', new)) (hsound : np.Sound)
    (ht : t.isSound) (hpopulate : t = .populate .loop → succeeds = false →
      np.maxNetworkPoolSize ≤ np.pool.length) : np'.Sound ∧ t'.isSound := by
  have hlock : ∀ {u : NetworkCall}, u.isSound →
      (np.lock i).map (·, u, ([] : List NetworkCall)) = some (np', t', new) →
      np'.Sound ∧ t'.isSound := by
    intro u hu h
    simp only [Option.map_eq_some_iff, Prod.mk.injEq] at h
    obtain ⟨np'', hlock, rfl, rfl, rfl⟩ := h
    rw [NetworkPoolManager.lock_eq_some hlock]
    exact ⟨hsound, hu⟩
  cases t with
  | getOneConfig pc =>
    cases pc with
    | lock => exact hlock rfl h
    | get =>
      simp only [NetworkCall.step, Option.some.injEq, Prod.mk.injEq] at h
      obtain ⟨rfl, rfl, rfl⟩ := h
      obtain ⟨hpool, hne⟩ := hsound.getOneConfig succeeds
      exact ⟨hpool, decide_eq_true hne⟩
    | unlock a =>
      cases h
      exact ⟨hsound, ht⟩
    | returned a => cases h
  | giveUpNetwork c' pc =>
    cases pc with
    | lock => exact hlock rfl h
    | recycle =>
      simp only [NetworkCall.step, Option.some.injEq, Prod.mk.injEq] at h
      obtain ⟨rfl, rfl, rfl⟩ := h
      exact ⟨hsound.giveUpNetwork c', rfl⟩
    | unlock recycled => cases recycled <;> cases h <;> exact ⟨hsound, rfl⟩
    | delete =>
      cases h
      exact ⟨hsound, rfl⟩
    | returned recycled => cases h
  | populate pc =>
    cases pc with
    | lock => exact hlock rfl h
    | loop =>
      simp only [NetworkCall.step] at h
      split at h
      next pool hpool =>
        cases h
        exact ⟨hsound.populate hpool (hpopulate rfl), rfl⟩
      next =>
        cases h
        exact ⟨hsound, rfl⟩
    | unlock =>
      cases h
      exact ⟨hsound, rfl⟩
    | returned => cases h

end

/-! ## What a run does -/

variable {s s' : Pool NetworkPoolManager NetworkCall} {e : Threads.Event NetworkCall Bool}

theorem networkPool_next {networkPoolSize : ℤ}
    (h : (networkPool networkPoolSize).next s e = some s') :
    networkCalls.machine.next s e = some s' := by
  cases e with
  | start t => exact (Option.ite_none_right_eq_some.1 h).2
  | run i succeeds => exact h

/-- The invariant of the runs. -/
structure Kept (s : Pool NetworkPoolManager NetworkCall) : Prop where
  sound : s.shared.Sound
  isSound : ∀ t ∈ s.threads, t.isSound
  conserved : ∀ c, Conserved s c

theorem conserved_step {np' : NetworkPoolManager} {i c : ℕ} {succeeds : Bool} {t t' : NetworkCall}
    {new : List NetworkCall} (h : Conserved s c) (ht : s.threads[i]? = some t)
    (hstep : t.step s.shared i succeeds = some (np', t', new)) :
    Conserved ⟨np', advance s.threads i t' new⟩ c := by
  obtain ⟨heffect, hnew⟩ := step_effect hstep c
  have hnone : ∀ p : NetworkCall → Bool, p (.populate .lock) = false → new.countP p = 0 := by
    intro p hp
    rw [List.countP_eq_zero]
    intro u hu
    rw [hnew u hu, hp]
    exact Bool.false_ne_true
  have hgot := countP_advance (·.got c) ht t' new
  have hrecycled := countP_advance (·.recycled c) ht t' new
  have hgivesUp := countP_advance (·.givesUp c) ht t' new
  rw [hnone _ rfl] at hgot hrecycled hgivesUp
  obtain ⟨hentries, hle⟩ := h
  obtain ⟨hentries', hgivesUp', hgot'⟩ := heffect
  rw [hgivesUp'] at hgivesUp
  refine ⟨by dsimp only; omega, ?_⟩
  have hmono : (if t.got c then 1 else 0) ≤ if t'.got c then 1 else 0 := by
    split_ifs <;> simp_all
  dsimp only
  omega

theorem conserved_start {t : NetworkCall} {c : ℕ} (h : Conserved s c) (ht : t.isCall)
    (hgivesUp : t.givesUp c → HandedOut s.threads c) :
    Conserved ⟨s.shared, s.threads ++ [t]⟩ c := by
  obtain ⟨hentries, hle⟩ := h
  have hgot : t.got c = false := by
    cases t with
    | getOneConfig pc => cases pc <;> first | rfl | cases ht
    | giveUpNetwork c' pc | populate pc => rfl
  have hrecycled : t.recycled c = false := by
    cases t with
    | getOneConfig pc | populate pc => rfl
    | giveUpNetwork c' pc => cases pc <;> first | rfl | cases ht
  constructor
  · simpa [List.countP_append, List.countP_singleton, hgot, hrecycled] using hentries
  · simp only [List.countP_append, List.countP_singleton, hgot, Bool.false_eq_true, if_false]
    split
    next hup =>
      have hlt := hgivesUp hup
      unfold HandedOut at hlt
      omega
    next => omega

theorem kept_step (h : Kept s) (hG : KeepsIntact ⟨s, e, s'⟩)
    (hn : networkCalls.machine.next s e = some s') :
    Kept s' := by
  rcases Threads.next_cases hn with
    ⟨a, t, rfl, hcall, rfl⟩ | ⟨i, succeeds, t, np', t', new, rfl, ht, hstep, rfl⟩
  · obtain ⟨hisCall, hat⟩ := Option.ite_none_right_eq_some.1 hcall
    obtain rfl : a = t := Option.some.inj hat
    refine ⟨h.sound, forall_mem_concat h.isSound ?_, fun c => ?_⟩
    · cases a with
      | getOneConfig pc => cases pc <;> first | rfl | cases hisCall
      | giveUpNetwork c' pc | populate pc => rfl
    · refine conserved_start (h.conserved c) hisCall fun hgivesUp => ?_
      cases a with
      | giveUpNetwork c' pc =>
        obtain rfl : c' = c := of_decide_eq_true hgivesUp
        exact hG
      | getOneConfig pc | populate pc => cases hgivesUp
  · have hpopulate : t = .populate .loop → succeeds = false →
        s.shared.maxNetworkPoolSize ≤ s.shared.pool.length := by
      rintro rfl rfl
      exact hG ht
    obtain ⟨hsound, hsound'⟩ :=
      step_sound hstep h.sound (h.isSound t (List.mem_of_getElem? ht)) hpopulate
    refine ⟨hsound, fun u hu => ?_, fun c => conserved_step (h.conserved c) ht hstep⟩
    rcases mem_of_mem_advance hu with rfl | hsame | hu
    · exact hsound'
    · exact h.isSound u hsame
    · rw [(step_effect hstep 0).2 u hu]
      rfl

/-- An entry of the pool is not handed out, and there is no second one. -/
theorem Kept.intact (h : Kept s) : Intact s := by
  have hrecycled : ∀ c, s.threads.countP (·.recycled c) ≤ s.threads.countP (·.givesUp c) := by
    intro c
    refine List.countP_mono_left fun t _ ht => ?_
    cases t with
    | giveUpNetwork c' pc =>
      cases pc with
      | unlock r | returned r => cases r <;> first | exact ht | cases ht
      | _ => cases ht
    | _ => cases ht
  have hmade : ∀ c, s.shared.made c ≤ 1 := by
    intro c
    unfold NetworkPool.made
    split <;> omega
  have hcount : ∀ c, s.shared.pool.count (some c) + s.threads.countP (·.got c) ≤
      1 + s.threads.countP (·.givesUp c) := by
    intro c
    have hentries := (h.conserved c).entries
    have := hrecycled c
    have := hmade c
    omega
  refine ⟨h.sound.length_le, h.sound.not_nil, ?_, ?_, ?_⟩
  · rw [List.nodup_iff_count_le_one]
    intro config
    cases config with
    | none =>
      rw [List.count_eq_zero_of_not_mem h.sound.not_nil]
      exact Nat.zero_le _
    | some c =>
      have := hcount c
      have := (h.conserved c).givesUp_le
      omega
  · intro c hout hmem
    have := hcount c
    have := List.count_pos_iff.2 hmem
    unfold HandedOut at hout
    omega
  · intro a ha hnil
    have hsound := h.isSound _ ha
    cases a with
    | created c => cases hnil
    | creationFailed => rfl
    | taken config =>
      cases hnil
      cases hsound

/-- **Network pool integrity.** In every run in which the `createNetwork` calls of `populate`
succeed and configurations are given up only while they are handed out, the pool is intact. -/
theorem intact_of_run {networkPoolSize : ℤ}
    {tr : List (Machine.Step (Pool NetworkPoolManager NetworkCall)
      (Threads.Event NetworkCall Bool))}
    {s : Pool NetworkPoolManager NetworkCall} (h : (networkPool networkPoolSize).Run tr s)
    (hG : ∀ t ∈ tr, KeepsIntact t) : Intact s := by
  refine Kept.intact (h.invariant (I := fun _ s => Kept s) (G := KeepsIntact) ?_ ?_ hG)
  · rintro s rfl
    refine ⟨⟨Nat.zero_le _, List.not_mem_nil⟩, fun t ht => ?_, fun c => ⟨rfl, le_rfl⟩⟩
    rw [List.mem_singleton.1 ht]
    rfl
  · intro tr s e s' _ hkept hG hn
    exact kept_step hkept hG (networkPool_next hn)

/-- The constructor's `populate` of a pool of 16, where the first `createNetwork` may fail. -/
def construction (first : Bool) : List (Threads.Event NetworkCall Bool) :=
  [.run 0 true, .run 0 first] ++ List.replicate 17 (.run 0 true)

/-- `GetOneConfig` in thread `i`. -/
def acquisition (i : ℕ) : List (Threads.Event NetworkCall Bool) :=
  [.start (.getOneConfig .lock), .run i true, .run i true, .run i true]

/-- A configuration is handed out and given up. -/
theorem intact_of_recycled :
    ∃ tr s, (networkPool 20).Run tr s ∧ (∀ t ∈ tr, KeepsIntact t) ∧
      .getOneConfig (.returned (.taken (some 0))) ∈ s.threads ∧
      .giveUpNetwork 0 (.returned true) ∈ s.threads ∧ Intact s := by
  obtain ⟨tr, s, hrun, hkeeps, hgot, hgiven⟩ := Machine.exists_run_of_play (M := networkPool 20)
    (construction true ++ acquisition 1 ++
      [.start (.giveUpNetwork 0 .lock), .run 2 true, .run 2 true, .run 2 true])
    (P := fun tr s => (∀ t ∈ tr, KeepsIntact t) ∧
      .getOneConfig (.returned (.taken (some 0))) ∈ s.threads ∧
      .giveUpNetwork 0 (.returned true) ∈ s.threads) rfl (by decide +kernel)
  exact ⟨tr, s, hrun, hkeeps, hgot, hgiven, intact_of_run hrun hkeeps⟩

/-- The first `createNetwork` of the constructor's `populate` fails: nil is in the pool, and the
first `GetOneConfig` returns it without a `createNetwork` of its own. -/
theorem exists_nil_acquired :
    ∃ tr s, (networkPool 16).Run tr s ∧ (∃ t ∈ tr, none ∈ t.src.shared.pool) ∧
      .getOneConfig (.returned (.taken none)) ∈ s.threads :=
  Machine.exists_run_of_play (construction false ++ acquisition 1) rfl (by decide +kernel)

end Dirigent.WorkerNode
