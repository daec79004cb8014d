import Dirigent.Prog

/-!
# Protocols of goroutines

A protocol watches a goroutine: it keeps a state of its own, updated by every step the goroutine
makes, and says in which states a step may be made. A program follows a protocol if it makes no
other steps; what holds in every run of the protocol then holds in every run of the programs.

* `Protocol` — the watcher; `Moves` — what a step of one goroutine does to what is shared.
* `Follows` — a program follows the protocol, with its rules for sequencing and for loops; `Stays`
  — it also leaves the protocol where it was.
* `prod` — two protocols that watch together (`Follows.prod`).
* `exists_of_run` — **the invariant rule**: an assertion kept by the steps of the protocol holds in
  every run of programs that follow it.
-/

/-- What a goroutine does in a step, apart from the effect on what is shared. -/
inductive Label (L A C : Type) (R : A → Type)
  | act (a : A) (r : R a)
  | sync (o : LockOp) (l : L)
  | go (cs : List C)
  | join (cs : List C)
  | jump (c : C)

/-- Goroutines watched through states `X`: the state each goroutine starts in, also after a jump,
the state after a step, when a step may be made, and when the goroutine may finish or fault. -/
structure Protocol (L A C : Type) (R : A → Type) (X : Type) where
  start : C → X
  next : X → Label L A C R → X
  guard : X → Label L A C R → Prop
  ended : X → Prop
  halts : X → Prop := fun _ => True

namespace Protocol

variable {L A C : Type} {R : A → Type} {σ κ X Y : Type}

/-- A goroutine that behaves as `c` and reports to `parent`. -/
def goroutine (B : Protocol L A C R X) (parent : Option ℕ) (c : C) : Goroutine C X :=
  { code := B.start c, op := c, parent := parent }

/-- What a step of goroutine `i` can do, when goroutines behave as `B` says and actions as `exec`
does. -/
inductive Moves [DecidableEq L] (B : Protocol L A C R X) (exec : (a : A) → σ → κ → Option (R a × σ))
    (s : Shared L σ) (i : ℕ) (t : Goroutine C X) (c : κ) :
    Shared L σ → Goroutine C X → List (Goroutine C X) → Prop
  | finish : t.phase = .ready → B.ended t.code →
      B.Moves exec s i t c (s.report t.parent) { t with phase := .finished } []
  | act {a : A} {r : R a} {d : σ} : t.phase = .ready → B.guard t.code (.act a r) →
      exec a s.data c = some (r, d) →
      B.Moves exec s i t c { s with data := d } { t with code := B.next t.code (.act a r) } []
  | announce {l : L} {m : RWMutex} : t.phase = .ready → B.guard t.code (.sync .lock l) →
      (s.locks l).announce i = some m →
      B.Moves exec s i t c (s.setLock l m) { t with phase := .announced } []
  | acquire {l : L} {m : RWMutex} : t.phase = .announced → B.guard t.code (.sync .lock l) →
      (s.locks l).acquire i = some m →
      B.Moves exec s i t c (s.setLock l m)
        { t with code := B.next t.code (.sync .lock l), phase := .ready } []
  | unlock {l : L} : t.phase = .ready → B.guard t.code (.sync .unlock l) →
      B.Moves exec s i t c (s.setLock l (s.locks l).unlock)
        { t with code := B.next t.code (.sync .unlock l) } []
  | rlock {l : L} {m : RWMutex} : t.phase = .ready → B.guard t.code (.sync .rlock l) →
      (s.locks l).rlock i = some m →
      B.Moves exec s i t c (s.setLock l m) { t with code := B.next t.code (.sync .rlock l) } []
  | runlock {l : L} : t.phase = .ready → B.guard t.code (.sync .runlock l) →
      B.Moves exec s i t c (s.setLock l ((s.locks l).runlock i))
        { t with code := B.next t.code (.sync .runlock l) } []
  | go {cs : List C} : t.phase = .ready → B.guard t.code (.go cs) →
      B.Moves exec s i t c s { t with code := B.next t.code (.go cs) } (cs.map (B.goroutine none))
  | join {cs : List C} : t.phase = .ready → B.guard t.code (.join cs) →
      B.Moves exec s i t c (s.expect i cs.length) { t with phase := .waiting }
        (cs.map (B.goroutine (some i)))
  | joined {cs : List C} : t.phase = .waiting → B.guard t.code (.join cs) →
      s.unfinished i = 0 →
      B.Moves exec s i t c s { t with code := B.next t.code (.join cs), phase := .ready } []
  | jump {d : C} : t.phase = .ready → B.guard t.code (.jump d) →
      B.Moves exec s i t c s { t with code := B.start d, op := d } []

/-- Two protocols that watch the same goroutines. -/
def prod (B : Protocol L A C R X) (B' : Protocol L A C R Y) : Protocol L A C R (X × Y) where
  start c := (B.start c, B'.start c)
  next x l := (B.next x.1 l, B'.next x.2 l)
  guard x l := B.guard x.1 l ∧ B'.guard x.2 l
  ended x := B.ended x.1 ∧ B'.ended x.2
  halts x := B.halts x.1 ∧ B'.halts x.2

end Protocol

/-- The same goroutine with another view of its code. -/
def Goroutine.map {C X Y : Type} (f : X → Y) (g : Goroutine C X) : Goroutine C Y :=
  { code := f g.code, op := g.op, parent := g.parent, phase := g.phase }

namespace Protocol

variable {B : Protocol L A C R X} {B' : Protocol L A C R Y}
  {exec : (a : A) → σ → κ → Option (R a × σ)} {s s' : Shared L σ} {i : ℕ}
  {g g' : Goroutine C (X × Y)} {c : κ} {new : List (Goroutine C (X × Y))}

/-- What one of two protocols that watch together sees of a move. -/
theorem Moves.fst [DecidableEq L] (h : (B.prod B').Moves exec s i g c s' g' new) :
    B.Moves exec s i (g.map Prod.fst) c s' (g'.map Prod.fst)
      (new.map (Goroutine.map Prod.fst)) := by
  cases h with
  | finish hp he => exact .finish hp he.1
  | act hp hg he => exact .act hp hg.1 he
  | announce hp hg hm => exact .announce hp hg.1 hm
  | acquire hp hg hm => exact .acquire hp hg.1 hm
  | unlock hp hg => exact .unlock hp hg.1
  | rlock hp hg hm => exact .rlock hp hg.1 hm
  | runlock hp hg => exact .runlock hp hg.1
  | go hp hg =>
    rw [List.map_map]
    exact .go hp hg.1
  | join hp hg =>
    rw [List.map_map]
    exact .join hp hg.1
  | joined hp hg hz => exact .joined hp hg.1 hz
  | jump hp hg => exact .jump hp hg.1

theorem Moves.snd [DecidableEq L] (h : (B.prod B').Moves exec s i g c s' g' new) :
    B'.Moves exec s i (g.map Prod.snd) c s' (g'.map Prod.snd)
      (new.map (Goroutine.map Prod.snd)) := by
  cases h with
  | finish hp he => exact .finish hp he.2
  | act hp hg he => exact .act hp hg.2 he
  | announce hp hg hm => exact .announce hp hg.2 hm
  | acquire hp hg hm => exact .acquire hp hg.2 hm
  | unlock hp hg => exact .unlock hp hg.2
  | rlock hp hg hm => exact .rlock hp hg.2 hm
  | runlock hp hg => exact .runlock hp hg.2
  | go hp hg =>
    rw [List.map_map]
    exact .go hp hg.2
  | join hp hg =>
    rw [List.map_map]
    exact .join hp hg.2
  | joined hp hg hz => exact .joined hp hg.2 hz
  | jump hp hg => exact .jump hp hg.2

section

variable [DecidableEq L] {B : Protocol L A C R X} {exec : (a : A) → σ → κ → Option (R a × σ)}
  {s s' : Shared L σ} {i : ℕ} {g g' : Goroutine C X} {c : κ} {new : List (Goroutine C X)}

/-- **What a move does to the goroutine that moves**: it waits or ends, makes a step, or jumps. Only
the steps that are actions change the data. -/
theorem Moves.code_cases (h : B.Moves exec s i g c s' g' new) :
    (s'.data = s.data ∧ g' = { g with phase := g'.phase } ∧
      (g'.phase = .finished → B.ended g.code)) ∨
    (∃ l, B.guard g.code l ∧ g' = { g with code := B.next g.code l, phase := .ready } ∧
      (s'.data = s.data ∧ (∀ a r, l ≠ .act a r) ∨
        ∃ a r, l = .act a r ∧ exec a s.data c = some (r, s'.data))) ∨
    ∃ d, s'.data = s.data ∧ B.guard g.code (.jump d) ∧
      g' = { g with code := B.start d, op := d, phase := .ready } := by
  obtain ⟨code, op, parent, phase⟩ := g
  cases h with
  | finish _ hended => exact .inl ⟨Shared.report_data _ _, rfl, fun _ => hended⟩
  | announce | join => exact .inl ⟨rfl, rfl, fun h => by cases h⟩
  | act hp hguard hexec =>
    obtain rfl : phase = .ready := hp
    exact .inr (.inl ⟨_, hguard, rfl, .inr ⟨_, _, rfl, hexec⟩⟩)
  | acquire _ hguard | joined _ hguard =>
    exact .inr (.inl ⟨_, hguard, rfl, .inl ⟨rfl, by intro _ _ h; cases h⟩⟩)
  | unlock hp hguard | rlock hp hguard | runlock hp hguard | go hp hguard =>
    obtain rfl : phase = .ready := hp
    exact .inr (.inl ⟨_, hguard, rfl, .inl ⟨rfl, by intro _ _ h; cases h⟩⟩)
  | jump hp hguard =>
    obtain rfl : phase = .ready := hp
    exact .inr (.inr ⟨_, rfl, hguard, rfl⟩)

theorem Moves.phase_ne (h : B.Moves exec s i g c s' g' new) : g.phase ≠ .finished := by
  intro hfinished
  cases h <;> simp_all

/-- **What a move does to the data**: nothing, or one action. -/
theorem Moves.data_cases (h : B.Moves exec s i g c s' g' new) :
    s'.data = s.data ∨ ∃ a r, B.guard g.code (.act a r) ∧ exec a s.data c = some (r, s'.data) := by
  rcases h.code_cases with ⟨hdata, -⟩ |
    ⟨l, hguard, -, ⟨hdata, -⟩ | ⟨a, r, rfl, hexec⟩⟩ | ⟨d, hdata, -⟩
  · exact .inl hdata
  · exact .inl hdata
  · exact .inr ⟨a, r, hguard, hexec⟩
  · exact .inl hdata

/-- **Where new goroutines come from.** -/
theorem Moves.mem_new (h : B.Moves exec s i g c s' g' new) {u : Goroutine C X} (hu : u ∈ new) :
    s'.data = s.data ∧ ∃ cs parent d, (B.guard g.code (.go cs) ∨ B.guard g.code (.join cs)) ∧
      d ∈ cs ∧ u = B.goroutine parent d := by
  cases h with
  | @go cs _ hguard =>
    obtain ⟨d, hd, rfl⟩ := List.mem_map.1 hu
    exact ⟨rfl, cs, none, d, .inl hguard, hd, rfl⟩
  | @join cs _ hguard =>
    obtain ⟨d, hd, rfl⟩ := List.mem_map.1 hu
    exact ⟨rfl, cs, some i, d, .inr hguard, hd, rfl⟩
  | _ => cases hu

end

/-! ## Programs that follow a protocol -/

section

variable {α β : Type}

/-- The protocol admits every step of the program, from state `x`, as long as the answers to the
actions are `allowed`; where the program ends the protocol is in a state with `Q`. -/
def Follows (B : Protocol L A C R X) (allowed : (a : A) → R a → Prop) :
    Prog L A C R α → (α → X → Prop) → X → Prop
  | .ret v, Q, x => Q v x
  | .act a k, Q, x => ∀ r, allowed a r →
      B.guard x (.act a r) ∧ B.Follows allowed (k r) Q (B.next x (.act a r))
  | .sync o l k, Q, x => B.guard x (.sync o l) ∧ B.Follows allowed k Q (B.next x (.sync o l))
  | .go cs k, Q, x => B.guard x (.go cs) ∧ B.Follows allowed k Q (B.next x (.go cs))
  | .join cs k, Q, x => B.guard x (.join cs) ∧ B.Follows allowed k Q (B.next x (.join cs))
  | .jump c, _, x => B.guard x (.jump c)
  | .halt, _, x => B.halts x

variable {B : Protocol L A C R X} {B' : Protocol L A C R Y} {allowed : (a : A) → R a → Prop}
  {Q : β → X → Prop} {Q' : β → Y → Prop} {x : X} {y : Y}

variable {p : Prog L A C R α} {f : α → Prog L A C R β} {γ : Type} {xs : List γ} {l : L}

/-- **The rule of sequencing.** -/
theorem follows_bind :
    B.Follows allowed (p >>= f) Q x ↔ B.Follows allowed p
      (fun v => B.Follows allowed (f v) Q) x := by
  change B.Follows allowed (p.bind f) Q x ↔ _
  induction p generalizing x with
  | ret v | jump c | halt => rfl
  | act a k ih | sync o l k ih | go cs k ih | join cs k ih => simp only [Prog.bind, Follows, ih]

theorem follows_perform {a : A} {f : R a → Prog L A C R β} :
    B.Follows allowed (Prog.perform a >>= f) Q x ↔
      ∀ r, allowed a r → B.guard x (.act a r) ∧ B.Follows allowed (f r) Q (B.next x (.act a r)) :=
  Iff.rfl

/-- The rule of consequence. -/
theorem Follows.mono {p : Prog L A C R β} {P : β → X → Prop} (h : B.Follows allowed p Q x)
    (hQ : ∀ v y, Q v y → P v y) : B.Follows allowed p P x := by
  induction p generalizing x with
  | ret v => exact hQ v x h
  | act a k ih => exact fun r hr => ⟨(h r hr).1, ih r (h r hr).2⟩
  | sync o l k ih | go cs k ih | join cs k ih => exact ⟨h.1, ih h.2⟩
  | jump c | halt => exact h

theorem Follows.of_allowed {p : Prog L A C R β} {fewer : (a : A) → R a → Prop}
    (h : B.Follows allowed p Q x) (hfewer : ∀ a r, fewer a r → allowed a r) :
    B.Follows fewer p Q x := by
  induction p generalizing x with
  | ret v | jump c | halt => exact h
  | act a k ih => exact fun r hr => ⟨(h r (hfewer a r hr)).1, ih r (h r (hfewer a r hr)).2⟩
  | sync o l k ih | go cs k ih | join cs k ih => exact ⟨h.1, ih h.2⟩

/-- **The rule of loops**: an invariant of the state that each round keeps. -/
theorem follows_forM {f : γ → Prog L A C R PUnit} {I : X → Prop} (hx : I x)
    (hf : ∀ v ∈ xs, ∀ y, I y → B.Follows allowed (f v) (fun _ => I) y) :
    B.Follows allowed (forM xs f) (fun _ => I) x := by
  induction xs generalizing x with
  | nil => exact hx
  | cons v xs ih =>
    rw [List.forM_cons, follows_bind]
    refine (hf v List.mem_cons_self x hx).mono fun _ y hy => ?_
    exact ih hy fun w hw => hf w (List.mem_cons_of_mem _ hw)

/-- Any program follows a protocol from states in which every step is admitted. -/
theorem follows_of_closed {p : Prog L A C R β} {S : X → Prop}
    (hS : ∀ x l, S x → B.guard x l ∧ S (B.next x l)) (hhalts : ∀ x, S x → B.halts x) (hx : S x) :
    B.Follows allowed p (fun _ => S) x := by
  induction p generalizing x with
  | ret v => exact hx
  | act a k ih => exact fun r _ => ⟨(hS x _ hx).1, ih r (hS x _ hx).2⟩
  | sync o l k ih | go cs k ih | join cs k ih => exact ⟨(hS x _ hx).1, ih (hS x _ hx).2⟩
  | jump c => exact (hS x _ hx).1
  | halt => exact hhalts x hx

/-- The program follows the protocol and leaves it in the state it was entered in. -/
def Stays (B : Protocol L A C R X) (allowed : (a : A) → R a → Prop) (x : X) (p : Prog L A C R α) :
    Prop := B.Follows allowed p (fun _ y => y = x) x

/-- The protocol admits the step and stays where it is. -/
def Admits (B : Protocol L A C R X) (x : X) (l : Label L A C R) : Prop :=
  B.guard x l ∧ B.next x l = x

theorem Stays.bind (hp : B.Stays allowed x p) (hf : ∀ v, B.Follows allowed (f v) Q x) :
    B.Follows allowed (p >>= f) Q x := by
  refine follows_bind.2 (Follows.mono hp ?_)
  rintro v _ rfl
  exact hf v

theorem stays_perform {a : A} (ha : ∀ r, B.Admits x (.act a r)) :
    B.Stays allowed x (Prog.perform a : Prog L A C R (R a)) := fun r _ => ha r

theorem stays_withLock (hlock : B.Admits x (.sync .lock l))
    (hunlock : B.Admits x (.sync .unlock l)) (hp : B.Stays allowed x p) :
    B.Stays allowed x (Prog.withLock l p) := by
  have hin : B.Stays allowed x (Prog.lock l : Prog L A C R Unit) := hlock
  have hout : B.Stays allowed x (Prog.unlock l : Prog L A C R Unit) := hunlock
  exact hin.bind fun _ => hp.bind fun _ => hout.bind fun _ => rfl

theorem stays_withRLock (hlock : B.Admits x (.sync .rlock l))
    (hunlock : B.Admits x (.sync .runlock l)) (hp : B.Stays allowed x p) :
    B.Stays allowed x (Prog.withRLock l p) := by
  have hin : B.Stays allowed x (Prog.rlock l : Prog L A C R Unit) := hlock
  have hout : B.Stays allowed x (Prog.runlock l : Prog L A C R Unit) := hunlock
  exact hin.bind fun _ => hp.bind fun _ => hout.bind fun _ => rfl

theorem stays_forM {f : γ → Prog L A C R PUnit} (hf : ∀ v ∈ xs, B.Stays allowed x (f v)) :
    B.Stays allowed x (forM xs f) := by
  refine follows_forM rfl fun v hv y hy => ?_
  subst hy
  exact hf v hv

/-- A program that follows two protocols follows both together. -/
theorem Follows.prod {p : Prog L A C R β} (h : B.Follows allowed p Q x)
    (h' : B'.Follows allowed p Q' y) :
    (B.prod B').Follows allowed p (fun v z => Q v z.1 ∧ Q' v z.2) (x, y) := by
  induction p generalizing x y with
  | ret v | jump c | halt => exact ⟨h, h'⟩
  | act a k ih => exact fun r hr => ⟨⟨(h r hr).1, (h' r hr).1⟩, ih r (h r hr).2 (h' r hr).2⟩
  | sync o l k ih | go cs k ih | join cs k ih => exact ⟨⟨h.1, h'.1⟩, ih h.2 h'.2⟩

theorem Follows.snd {p : Prog L A C R β} {z : X × Y}
    (h : (B.prod B').Follows allowed p (fun v z => Q v z.1 ∧ Q' v z.2) z) :
    B'.Follows allowed p Q' z.2 := by
  induction p generalizing z with
  | ret v | jump c | halt => exact h.2
  | act a k ih => exact fun r hr => ⟨(h r hr).1.2, ih r (h r hr).2⟩
  | sync o l k ih | go cs k ih | join cs k ih => exact ⟨h.1.2, ih h.2⟩

end

/-! ## Runs -/

section

variable {P : Lang L A C R σ κ} {B : Protocol L A C R X} {allowed : (a : A) → R a → Prop}

/-- The protocol's goroutine `g` stands for the program's goroutine `t`. -/
def Sim (B : Protocol L A C R X) (allowed : (a : A) → R a → Prop) (g : Goroutine C X)
    (t : Goroutine C (Prog L A C R Unit)) : Prop :=
  B.Follows allowed t.code (fun _ => B.ended) g.code ∧
    g.op = t.op ∧ g.parent = t.parent ∧ g.phase = t.phase

/-- The protocol without the actions. -/
def passive (B : Protocol L A C R X) : Protocol L A C R X :=
  { B with guard := fun x l => B.guard x l ∧ ∀ a r, l ≠ .act a r }

variable {exec : (a : A) → σ → κ → Option (R a × σ)} {s s' : Shared L σ} {i : ℕ} {c : κ}
  {t t' : Goroutine C (Prog L A C R Unit)} {g : Goroutine C X}
  {new : List (Goroutine C (Prog L A C R Unit))}

theorem Moves.passive_fst [DecidableEq L] {B' : Protocol L A C R Y} {g g' : Goroutine C (X × Y)}
    {new : List (Goroutine C (X × Y))} (h : (B.prod B').passive.Moves exec s i g c s' g' new) :
    B.passive.Moves exec s i (g.map Prod.fst) c s' (g'.map Prod.fst)
      (new.map (Goroutine.map Prod.fst)) := by
  cases h with
  | finish hp he => exact .finish hp he.1
  | act hp hg he => exact .act hp ⟨hg.1.1, hg.2⟩ he
  | announce hp hg hm => exact .announce hp ⟨hg.1.1, hg.2⟩ hm
  | acquire hp hg hm => exact .acquire hp ⟨hg.1.1, hg.2⟩ hm
  | unlock hp hg => exact .unlock hp ⟨hg.1.1, hg.2⟩
  | rlock hp hg hm => exact .rlock hp ⟨hg.1.1, hg.2⟩ hm
  | runlock hp hg => exact .runlock hp ⟨hg.1.1, hg.2⟩
  | go hp hg =>
    rw [List.map_map]
    exact .go hp ⟨hg.1.1, hg.2⟩
  | join hp hg =>
    rw [List.map_map]
    exact .join hp ⟨hg.1.1, hg.2⟩
  | joined hp hg hz => exact .joined hp ⟨hg.1.1, hg.2⟩ hz
  | jump hp hg => exact .jump hp ⟨hg.1.1, hg.2⟩

/-- **A move is an action, or it leaves the data.** -/
theorem Moves.act_or_passive [DecidableEq L] {g g' : Goroutine C X} {new : List (Goroutine C X)}
    (h : B.Moves exec s i g c s' g' new) :
    (∃ a r, g.phase = .ready ∧ B.guard g.code (.act a r) ∧ exec a s.data c = some (r, s'.data) ∧
      g' = { g with code := B.next g.code (.act a r) } ∧ new = []) ∨
    (s'.data = s.data ∧ B.passive.Moves exec s i g c s' g' new) := by
  cases h with
  | finish hp he => exact .inr ⟨Shared.report_data _ _, .finish hp he⟩
  | act hp hg he => exact .inl ⟨_, _, hp, hg, he, rfl, rfl⟩
  | announce hp hg hm => exact .inr ⟨rfl, .announce hp ⟨hg, nofun⟩ hm⟩
  | acquire hp hg hm => exact .inr ⟨rfl, .acquire hp ⟨hg, nofun⟩ hm⟩
  | unlock hp hg => exact .inr ⟨rfl, .unlock hp ⟨hg, nofun⟩⟩
  | rlock hp hg hm => exact .inr ⟨rfl, .rlock hp ⟨hg, nofun⟩ hm⟩
  | runlock hp hg => exact .inr ⟨rfl, .runlock hp ⟨hg, nofun⟩⟩
  | go hp hg => exact .inr ⟨rfl, .go hp ⟨hg, nofun⟩⟩
  | join hp hg => exact .inr ⟨rfl, .join hp ⟨hg, nofun⟩⟩
  | joined hp hg hz => exact .inr ⟨rfl, .joined hp ⟨hg, nofun⟩ hz⟩
  | jump hp hg => exact .inr ⟨rfl, .jump hp ⟨hg, nofun⟩⟩

variable (hbody : ∀ c, B.Follows allowed (P.body c) (fun _ => B.ended) (B.start c))

include hbody

theorem sim_goroutine (parent : Option ℕ) (c : C) :
    B.Sim allowed (B.goroutine parent c) (P.goroutine parent c) :=
  ⟨hbody c, rfl, rfl, rfl⟩

theorem forall₂_sim_goroutine (parent : Option ℕ) (cs : List C) :
    List.Forall₂ (B.Sim allowed) (cs.map (B.goroutine parent)) (cs.map (P.goroutine parent)) := by
  rw [List.forall₂_map_left_iff, List.forall₂_map_right_iff]
  exact List.forall₂_same.2 fun c _ => sim_goroutine hbody parent c

variable [DecidableEq L]

/-- **Simulation.** Every step of a program that follows the protocol is a move of the protocol: the
action that the program is at, or a move that leaves the data. -/
theorem Sim.exists_moves_cases (h : B.Sim allowed g t)
    (hstep : P.step s i t c = some (s', t', new))
    (hallowed : ∀ a k r d, t.code = .act a k → P.exec a s.data c = some (r, d) → allowed a r) :
    ∃ g' gs, B.Moves P.exec s i g c s' g' gs ∧ B.Sim allowed g' t' ∧
      List.Forall₂ (B.Sim allowed) gs new ∧
        ((∃ a k r, t.code = .act a k ∧ P.exec a s.data c = some (r, s'.data) ∧
            B.guard g.code (.act a r) ∧ g' = { g with code := B.next g.code (.act a r) } ∧
            gs = []) ∨
          ((∀ a k, t.code ≠ .act a k) ∧ s'.data = s.data ∧
            B.passive.Moves P.exec s i g c s' g' gs)) := by
  obtain ⟨x, op, parent, phase⟩ := g
  obtain ⟨code, op', parent', phase'⟩ := t
  obtain ⟨hfollows, rfl, rfl, rfl⟩ := h
  -- a goroutine moves when it is ready, and otherwise only on from a `Lock` or a wait
  cases phase with
  | finished => simp [Lang.step] at hstep
  | announced =>
    cases code with
    | sync o l k =>
      obtain ⟨hguard, hk⟩ := hfollows
      cases o with
      | lock =>
        simp only [Lang.step, Option.map_eq_some_iff, Prod.mk.injEq] at hstep
        obtain ⟨m, hm, rfl, rfl, rfl⟩ := hstep
        exact ⟨_, _, .acquire rfl hguard hm, ⟨hk, rfl, rfl, rfl⟩, .nil, .inr ⟨by simp, rfl,
          .acquire rfl ⟨hguard, by simp⟩ hm⟩⟩
      | _ => simp [Lang.step] at hstep
    | _ => simp [Lang.step] at hstep
  | waiting =>
    cases code with
    | join cs k =>
      obtain ⟨hguard, hk⟩ := hfollows
      simp only [Lang.step, Option.ite_none_right_eq_some, Option.some.injEq,
        Prod.mk.injEq] at hstep
      obtain ⟨hzero, rfl, rfl, rfl⟩ := hstep
      exact ⟨_, _, .joined rfl hguard hzero, ⟨hk, rfl, rfl, rfl⟩, .nil, .inr ⟨by simp, rfl,
        .joined rfl ⟨hguard, by simp⟩ hzero⟩⟩
    | _ => simp [Lang.step] at hstep
  | ready =>
    cases code with
    | ret v =>
      simp only [Lang.step, Option.some.injEq, Prod.mk.injEq] at hstep
      obtain ⟨rfl, rfl, rfl⟩ := hstep
      exact ⟨_, _, .finish rfl hfollows, ⟨hfollows, rfl, rfl, rfl⟩, .nil, .inr ⟨by simp,
        Shared.report_data _ _, .finish rfl hfollows⟩⟩
    | act a k =>
      simp only [Lang.step, Option.map_eq_some_iff, Prod.mk.injEq] at hstep
      obtain ⟨⟨r, d⟩, hexec, rfl, rfl, rfl⟩ := hstep
      obtain ⟨hguard, hk⟩ := hfollows r (hallowed a k r d rfl hexec)
      exact ⟨_, _, .act rfl hguard hexec, ⟨hk, rfl, rfl, rfl⟩, .nil,
        .inl ⟨a, k, r, rfl, hexec, hguard, rfl, rfl⟩⟩
    | sync o l k =>
      obtain ⟨hguard, hk⟩ := hfollows
      cases o with
      | lock =>
        simp only [Lang.step, Option.map_eq_some_iff, Prod.mk.injEq] at hstep
        obtain ⟨m, hm, rfl, rfl, rfl⟩ := hstep
        exact ⟨_, _, .announce rfl hguard hm, ⟨⟨hguard, hk⟩, rfl, rfl, rfl⟩, .nil,
          .inr ⟨by simp, rfl, .announce rfl ⟨hguard, by simp⟩ hm⟩⟩
      | unlock =>
        simp only [Lang.step, Option.some.injEq, Prod.mk.injEq] at hstep
        obtain ⟨rfl, rfl, rfl⟩ := hstep
        exact ⟨_, _, .unlock rfl hguard, ⟨hk, rfl, rfl, rfl⟩, .nil, .inr ⟨by simp, rfl,
          .unlock rfl ⟨hguard, by simp⟩⟩⟩
      | rlock =>
        simp only [Lang.step, Option.map_eq_some_iff, Prod.mk.injEq] at hstep
        obtain ⟨m, hm, rfl, rfl, rfl⟩ := hstep
        exact ⟨_, _, .rlock rfl hguard hm, ⟨hk, rfl, rfl, rfl⟩, .nil, .inr ⟨by simp, rfl,
          .rlock rfl ⟨hguard, by simp⟩ hm⟩⟩
      | runlock =>
        simp only [Lang.step, Option.some.injEq, Prod.mk.injEq] at hstep
        obtain ⟨rfl, rfl, rfl⟩ := hstep
        exact ⟨_, _, .runlock rfl hguard, ⟨hk, rfl, rfl, rfl⟩, .nil, .inr ⟨by simp, rfl,
          .runlock rfl ⟨hguard, by simp⟩⟩⟩
    | go cs k =>
      obtain ⟨hguard, hk⟩ := hfollows
      simp only [Lang.step, Option.some.injEq, Prod.mk.injEq] at hstep
      obtain ⟨rfl, rfl, rfl⟩ := hstep
      exact ⟨_, _, .go rfl hguard, ⟨hk, rfl, rfl, rfl⟩, forall₂_sim_goroutine hbody none cs,
        .inr ⟨by simp, rfl, .go rfl ⟨hguard, by simp⟩⟩⟩
    | join cs k =>
      simp only [Lang.step, Option.some.injEq, Prod.mk.injEq] at hstep
      obtain ⟨rfl, rfl, rfl⟩ := hstep
      obtain ⟨hguard, hk⟩ := hfollows
      exact ⟨_, _, .join rfl hguard, ⟨⟨hguard, hk⟩, rfl, rfl, rfl⟩,
        forall₂_sim_goroutine hbody (some i) cs, .inr ⟨by simp, rfl, .join rfl ⟨hguard, by simp⟩⟩⟩
    | jump d =>
      simp only [Lang.step, Option.some.injEq, Prod.mk.injEq] at hstep
      obtain ⟨rfl, rfl, rfl⟩ := hstep
      exact ⟨_, _, .jump rfl hfollows, ⟨hbody d, rfl, rfl, rfl⟩, .nil, .inr ⟨by simp, rfl,
        .jump rfl ⟨hfollows, by simp⟩⟩⟩
    | halt => simp [Lang.step] at hstep

theorem Sim.exists_moves (h : B.Sim allowed g t) (hstep : P.step s i t c = some (s', t', new))
    (hallowed : ∀ a k r d, t.code = .act a k → P.exec a s.data c = some (r, d) → allowed a r) :
    ∃ g' gs, B.Moves P.exec s i g c s' g' gs ∧ B.Sim allowed g' t' ∧
      List.Forall₂ (B.Sim allowed) gs new := by
  obtain ⟨g', gs, hmoves, hsim, hnew, -⟩ := h.exists_moves_cases hbody hstep hallowed
  exact ⟨g', gs, hmoves, hsim, hnew⟩

/-- A step of one of the goroutines of a pool, for the protocol. -/
theorem exists_advance_cases {gs : List (Goroutine C X)}
    {ts new : List (Goroutine C (Prog L A C R Unit))} (hsim : List.Forall₂ (B.Sim allowed) gs ts)
    (ht : ts[i]? = some t) (hstep : P.step s i t c = some (s', t', new))
    (hallowed : ∀ a k r d, t.code = .act a k → P.exec a s.data c = some (r, d) → allowed a r) :
    ∃ g g' gnew, gs[i]? = some g ∧ B.Moves P.exec s i g c s' g' gnew ∧
      List.Forall₂ (B.Sim allowed) (Threads.advance gs i g' gnew) (Threads.advance ts i t' new) ∧
        ((∃ a k r, t.code = .act a k ∧ P.exec a s.data c = some (r, s'.data) ∧
            B.guard g.code (.act a r) ∧ g' = { g with code := B.next g.code (.act a r) } ∧
            gnew = []) ∨
          ((∀ a k, t.code ≠ .act a k) ∧ s'.data = s.data ∧
            B.passive.Moves P.exec s i g c s' g' gnew)) := by
  obtain ⟨g, hg, hgt⟩ := Threads.exists_of_forall₂ hsim ht
  obtain ⟨g', gnew, hmoves, hg', hgnew, hcases⟩ := hgt.exists_moves_cases hbody hstep hallowed
  exact ⟨g, g', gnew, hg, hmoves, Threads.forall₂_advance hsim hg' hgnew, hcases⟩

/-- **The invariant rule.** What holds initially and is kept by the calls and the moves of the
protocol holds after every run of programs that follow it, for some states of the protocol that
stand for the goroutines. Only steps that meet `G` have to be considered, if all steps of the run
meet it. -/
theorem exists_of_run
    {G : Machine.Step (Pool (Shared L σ) (Goroutine C (Prog L A C R Unit)))
      (Threads.Event C κ) → Prop}
    {I : Shared L σ → List (Goroutine C X) → Prop}
    (h₀ : ∀ s, P.threads.init s → I s [])
    (hcall : ∀ s ts gs c s', G ⟨⟨s, ts⟩, .start c, s'⟩ → P.entry c = true → I s gs →
      I s (gs ++ [B.goroutine none c]))
    (hallowed : ∀ s ts s' i c t a k r d, G ⟨⟨s, ts⟩, .run i c, s'⟩ → ts[i]? = some t →
      t.code = .act a k → P.exec a s.data c = some (r, d) → allowed a r)
    (hmove : ∀ s ts gs s' ts' i c g g' new, G ⟨⟨s, ts⟩, .run i c, ⟨s', ts'⟩⟩ →
      List.Forall₂ (B.Sim allowed) gs ts → gs[i]? = some g →
      B.Moves P.exec s i g c s' g' new → I s gs → I s' (Threads.advance gs i g' new))
    {tr : List (Machine.Step (Pool (Shared L σ) (Goroutine C (Prog L A C R Unit)))
      (Threads.Event C κ))} {s : Pool (Shared L σ) (Goroutine C (Prog L A C R Unit))}
    (h : P.threads.machine.Run tr s) (hG : ∀ st ∈ tr, G st) :
    ∃ gs, List.Forall₂ (B.Sim allowed) gs s.threads ∧ I s.shared gs := by
  refine h.invariant (G := G)
    (I := fun _ s => ∃ gs, List.Forall₂ (B.Sim allowed) gs s.threads ∧ I s.shared gs) ?_ ?_ hG
  · rintro ⟨s, ts⟩ ⟨hinit, rfl⟩
    exact ⟨[], .nil, h₀ s hinit⟩
  · rintro tr ⟨s, ts⟩ e s' - ⟨gs, hsim, hI⟩ hGst hnext
    rcases Threads.next_cases hnext with ⟨c, t, rfl, hc, rfl⟩ |
      ⟨i, c, t, d, t', new, rfl, ht, hstep, rfl⟩
    · simp only [Lang.threads, Option.ite_none_right_eq_some, Option.some.injEq] at hc
      obtain ⟨hentry, rfl⟩ := hc
      exact ⟨gs ++ [B.goroutine none c],
        List.rel_append hsim (.cons (sim_goroutine hbody none c) .nil),
        hcall s ts gs c _ hGst hentry hI⟩
    · obtain ⟨g, hg, hgt⟩ := Threads.exists_of_forall₂ hsim ht
      obtain ⟨g', gnew, hmoves, hg', hgnew⟩ := hgt.exists_moves hbody hstep
        fun a k r d hcode hexec => hallowed s ts _ i c t a k r d hGst ht hcode hexec
      exact ⟨Threads.advance gs i g' gnew, Threads.forall₂_advance hsim hg' hgnew,
        hmove s ts gs d _ i c g g' gnew hGst hsim hg hmoves hI⟩

end

end Protocol
