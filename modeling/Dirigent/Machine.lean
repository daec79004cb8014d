import Mathlib.Tactic

/-!
# Machines and their runs

A machine is a set of initial states with an executable step: an event either leads from a
state to one next state or cannot happen there. All nondeterminism (which thread moves, which
message is delivered, what a call returns) is in the event.

* `Machine.Run` — the runs of a machine, with every step they made.
* `Run.invariant` — what holds initially and is kept by every step holds in every run.
* `exists_run_of_play` — a schedule that the machine can play is a run.

A run keeps its steps, latest first, so that a statement can speak about the past.
-/

/-- A machine: its initial states, and the state each event leads to (`none` where the event
cannot happen). -/
structure Machine (σ ε : Type*) where
  init : σ → Prop
  next : σ → ε → Option σ

namespace Machine

variable {σ ε : Type*}

/-- One step of a run. -/
structure Step (σ ε : Type*) where
  src : σ
  event : ε
  dst : σ

/-- `M.Run tr s`: the steps `tr`, latest first, lead from an initial state to `s`. -/
inductive Run (M : Machine σ ε) : List (Step σ ε) → σ → Prop
  | init {s : σ} : M.init s → M.Run [] s
  | step {tr : List (Step σ ε)} {s s' : σ} {e : ε} :
      M.Run tr s → M.next s e = some s' → M.Run (⟨s, e, s'⟩ :: tr) s'

variable {M : Machine σ ε}

theorem Run.next_of_mem {tr : List (Step σ ε)} {s : σ} (h : M.Run tr s) {t : Step σ ε}
    (ht : t ∈ tr) : M.next t.src t.event = some t.dst := by
  induction h with
  | init => simp at ht
  | step _ hn ih =>
    rcases List.mem_cons.1 ht with rfl | ht
    · exact hn
    · exact ih ht

/-- **The invariant rule.** An assertion about the past and the present that holds initially and
is kept by every step that meets `G` holds after every run whose steps all meet `G`. -/
theorem Run.invariant {I : List (Step σ ε) → σ → Prop} {G : Step σ ε → Prop}
    (h₀ : ∀ s, M.init s → I [] s)
    (hs : ∀ tr s e s', M.Run tr s → I tr s → G ⟨s, e, s'⟩ → M.next s e = some s' →
      I (⟨s, e, s'⟩ :: tr) s')
    {tr : List (Step σ ε)} {s : σ} (h : M.Run tr s) (hG : ∀ t ∈ tr, G t) : I tr s := by
  induction h with
  | init h => exact h₀ _ h
  | step hr hn ih =>
    exact hs _ _ _ _ hr (ih fun t ht => hG t (List.mem_cons_of_mem _ ht))
      (hG _ List.mem_cons_self) hn

/-- The invariant rule for an assertion about the present state and all runs. -/
theorem Run.invariant_state {I : σ → Prop} (h₀ : ∀ s, M.init s → I s)
    (hs : ∀ s e s', I s → M.next s e = some s' → I s')
    {tr : List (Step σ ε)} {s : σ} (h : M.Run tr s) : I s :=
  h.invariant (I := fun _ s => I s) (G := fun _ => True) h₀
    (fun _ s e s' _ hI _ hn => hs s e s' hI hn) fun _ _ => trivial

/-- The source of every step of a run is itself reached by a run with fewer steps. -/
theorem Run.src {tr : List (Step σ ε)} {s : σ} (h : M.Run tr s) {t : Step σ ε} (ht : t ∈ tr) :
    ∃ tr', tr' <:+ tr ∧ M.Run tr' t.src := by
  induction h with
  | init => simp at ht
  | @step tr s s' e hr hn ih =>
    rcases List.mem_cons.1 ht with rfl | ht
    · exact ⟨tr, List.suffix_cons _ _, hr⟩
    · obtain ⟨tr', hsuf, hrun⟩ := ih ht
      exact ⟨tr', hsuf.trans (List.suffix_cons _ _), hrun⟩

/-- The machine, started in a given state. -/
def startingAt (M : Machine σ ε) (s : σ) : Machine σ ε := { M with init := (· = s) }

/-! ## Playing a schedule -/

/-- Play the events in order, if each can happen. -/
def play (M : Machine σ ε) : List (Step σ ε) × σ → List ε → Option (List (Step σ ε) × σ)
  | c, [] => some c
  | (tr, s), e :: es => (M.next s e).bind fun s' => M.play (⟨s, e, s'⟩ :: tr, s') es

theorem Run.play {es : List ε} {tr : List (Step σ ε)} {s : σ} {c : List (Step σ ε) × σ}
    (h : M.Run tr s) (hp : M.play (tr, s) es = some c) : M.Run c.1 c.2 := by
  induction es generalizing tr s with
  | nil =>
    obtain rfl : (tr, s) = c := by simpa [Machine.play] using hp
    exact h
  | cons e es ih =>
    simp only [Machine.play, Option.bind_eq_some_iff] at hp
    obtain ⟨s', hn, hp⟩ := hp
    exact ih (h.step hn) hp

/-- A schedule that plays to a point where `P` holds witnesses a run where `P` holds. -/
theorem exists_run_of_play (es : List ε) {P : List (Step σ ε) → σ → Prop} {s : σ}
    [∀ tr s, Decidable (P tr s)] (h₀ : M.init s)
    (h : ((M.play ([], s) es).any fun c => decide (P c.1 c.2)) = true) :
    ∃ tr s, M.Run tr s ∧ P tr s := by
  cases hp : M.play ([], s) es with
  | none => simp [hp] at h
  | some c => exact ⟨c.1, c.2, (Run.init h₀).play hp, by simpa [hp] using h⟩

end Machine
