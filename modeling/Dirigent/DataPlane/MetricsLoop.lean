import Dirigent.DataPlane.Steps

/-!
# The metrics loop of a function

A function with requests in flight should have one metrics loop, which reports the load to the
control plane. `TryWarmStart` counts its request and then makes sure that a loop runs; the loop
stops when it finds no request in flight.

There is never more than one loop: a loop that has not decided to stop, or a call about to start
one, comes with a set `autoscalingTriggered` (`OneArmed`). But the loop reads the counter and
clears the flag in two steps. A request that counts itself and sees the flag in between is left
without a loop. And the counter is a word of 32 bits: a `DecreaseInflight` at the least value
makes it positive, with no request that would see to a loop.

**Theorem (`metrics_loop_of_run`).** In a run where the loop never clears the flag over the head
of a request that has already seen it set, and the counter is never decreased below the least
value, a quiet function with requests in flight has exactly one loop.
-/

namespace Dirigent.DataPlane

open Threads

namespace Thread

/-- A metrics loop that has not exited. -/
def isLoop : Thread → Bool
  | .sendMetricsToAutoscaler pc => pc ≠ .exited
  | _ => false

/-- A metrics loop that has not decided to stop. -/
def isRunning : Thread → Bool
  | .sendMetricsToAutoscaler pc => pc ≠ .exited ∧ pc ≠ .unlock true
  | _ => false

/-- A loop that is running, or a call that is about to start one. -/
def isArmed : Thread → Bool
  | .tryWarmStart pc => pc = .startLoop
  | t => t.isRunning

/-- A call that has counted its request and has yet to see or set `autoscalingTriggered`. -/
def willTrigger : Thread → Bool
  | .tryWarmStart pc => pc = .incrementInflight ∨ pc = .loadTriggered ∨ pc = .swapTriggered
  | _ => false

/-- Not inside `TryWarmStart`, `DecreaseInflight` or an iteration of the metrics loop. -/
def isQuiet : Thread → Bool
  | .tryWarmStart pc => pc = .warm ∨ pc = .waiting
  | .decreaseInflight returned => returned
  | .sendMetricsToAutoscaler pc => pc = .tick ∨ pc = .exited
  | _ => true

end Thread

/-- The loop clears the flag although requests are in flight, and none of them has yet to look at
the flag. -/
def TriggerLost (st : Machine.Step (Pool FunctionMetadata Thread) (Threads.Event Thread Choice)) :
    Prop :=
  match st.event with
  | .run i _ => st.src.threads[i]? = some (.sendMetricsToAutoscaler .clear) ∧
      0 < st.src.shared.inflightRequests ∧ ∀ t ∈ st.src.threads, t.willTrigger = false
  | .start _ => False

/-- `DecreaseInflight` finds the least value in the counter. -/
def CounterWraps (st : Machine.Step (Pool FunctionMetadata Thread) (Threads.Event Thread Choice)) :
    Prop :=
  match st.event with
  | .run i _ => st.src.threads[i]? = some (.decreaseInflight false) ∧
      st.src.shared.inflightRequests = Int32.minValue
  | .start _ => False

/-! ## What a step does to the flag, the counter and the loops -/

variable {m m' : FunctionMetadata} {i : ℕ} {t t' : Thread}

/-- How a step moves the loops: it hands the right to be the loop on, or a call takes it with the
flag, or the loop gives it up with the flag. -/
inductive LoopMove (m : FunctionMetadata) : Thread → FunctionMetadata → Thread → Prop
  | keep {t t' : Thread} {m' : FunctionMetadata} :
      m'.autoscalingTriggered = m.autoscalingTriggered →
      (if t'.isArmed then 1 else 0) + t.starts.countP Thread.isArmed =
        (if t.isArmed then 1 else 0) →
      (0 < m'.inflightRequests → 0 < m.inflightRequests ∨ t'.willTrigger = true ∨
        t = .decreaseInflight false ∧ m.inflightRequests = Int32.minValue) →
      (t.willTrigger = true → t'.willTrigger = true ∨ m.autoscalingTriggered = true) →
      LoopMove m t m' t'
  | trigger : m.autoscalingTriggered = false → LoopMove m (.tryWarmStart .swapTriggered)
      { m with autoscalingTriggered := true } (.tryWarmStart .startLoop)
  | clear : LoopMove m (.sendMetricsToAutoscaler .clear)
      { m with autoscalingTriggered := false } (.sendMetricsToAutoscaler (.unlock true))

theorem pos_of_pos_sub_one {x : Int32} (h : 0 < x - 1) : 0 < x ∨ x = Int32.minValue := by
  grind

theorem Effect.loopMove (h : Effect m i t m' t') : LoopMove m t m' t' := by
  cases h with
  | trigger hf => exact .trigger hf
  | clear => exact .clear
  | addInflight => exact .keep rfl rfl (fun _ => .inr (.inl rfl)) (by simp [Thread.willTrigger])
  | seeTriggered hf => exact .keep rfl rfl .inl fun _ => .inr hf
  | decreaseInflight =>
    refine .keep rfl rfl (fun hpos => ?_) (by simp [Thread.willTrigger])
    exact (pos_of_pos_sub_one hpos).imp_right fun hmin => .inr ⟨rfl, hmin⟩
  | append =>
    rw [FunctionMetadata.addToEndpointList_eq]
    exact .keep rfl rfl .inl (by simp [Thread.willTrigger])
  | _ => exact .keep rfl rfl .inl (by simp [Thread.willTrigger])

/-! ## At most one loop -/

theorem isArmed_of_isCall (h : t.isCall = true) : t.isArmed = false := by
  cases t <;> simp_all [Thread.isCall, Thread.isArmed, Thread.isRunning]

/-- The flag is set exactly while one thread is the loop or about to start it. -/
def OneArmed (s : Pool FunctionMetadata Thread) : Prop :=
  s.threads.countP Thread.isArmed = if s.shared.autoscalingTriggered then 1 else 0

variable {ts : List Thread} {tr : List (Machine.Step _ _)} {s : Pool FunctionMetadata Thread}

theorem oneArmed_step (ht : ts[i]? = some t) (h : OneArmed ⟨m, ts⟩) (hm : LoopMove m t m' t') :
    OneArmed ⟨m', advance ts i t' t.starts⟩ := by
  have hcount := countP_advance Thread.isArmed ht t' t.starts
  simp only [OneArmed] at h ⊢
  cases hm with
  | keep hf hw =>
    rw [hf]
    omega
  | trigger hf =>
    simp only [hf, Thread.isArmed, Thread.starts] at h hcount ⊢
    simpa [h] using hcount
  | clear =>
    simp only [Thread.isArmed, Thread.isRunning, Thread.starts] at hcount ⊢
    -- the loop itself was armed, so the flag was set and nobody else is
    have hle : ts.countP Thread.isArmed ≤ 1 := by
      rw [h]
      split <;> omega
    simp only [ne_eq, reduceCtorEq, not_false_eq_true, and_self, decide_true, if_true,
      not_true_eq_false, and_false, decide_false, Bool.false_eq_true, if_false,
      List.countP_nil] at hcount ⊢
    omega

theorem oneArmed_of_run (h : calls.machine.Run tr s) : OneArmed s := by
  refine h.invariant_state ?_ ?_
  · rintro ⟨m, ts⟩ ⟨⟨p, rfl⟩, rfl⟩
    rfl
  · intro s e s' hs hn
    rcases calls_next hn with ⟨t, -, ht, rfl⟩ | ⟨i, c, t, m', t', -, ht, heff, rfl⟩
    · simp only [OneArmed, List.countP_append, List.countP_singleton, isArmed_of_isCall ht]
      exact hs
    · exact oneArmed_step ht hs heff.loopMove

/-! ## No lost trigger -/

/-- Requests in flight have a loop, or one of them will still see to it. -/
def Triggered (s : Pool FunctionMetadata Thread) : Prop :=
  0 < s.shared.inflightRequests →
    s.shared.autoscalingTriggered = true ∨ ∃ t ∈ s.threads, t.willTrigger = true

theorem triggered_step {c : Choice} (ht : ts[i]? = some t) (h : Triggered ⟨m, ts⟩)
    (hm : LoopMove m t m' t')
    (hlost : ¬ TriggerLost ⟨⟨m, ts⟩, .run i c, ⟨m', advance ts i t' t.starts⟩⟩)
    (hwraps : ¬ CounterWraps ⟨⟨m, ts⟩, .run i c, ⟨m', advance ts i t' t.starts⟩⟩) :
    Triggered ⟨m', advance ts i t' t.starts⟩ := by
  have hself := mem_advance_self t' t.starts ht
  intro hpos
  cases hm with
  | keep hf hw hi htest =>
    rcases hi hpos with hpos | hw' | ⟨rfl, hmin⟩
    · rcases h hpos with hflag | ⟨u, hu, huw⟩
      · exact .inl (hf.trans hflag)
      · by_cases hut : u = t
        · subst hut
          rcases htest huw with hw' | hflag
          · exact .inr ⟨t', hself, hw'⟩
          · exact .inl (hf.trans hflag)
        · exact .inr ⟨u, mem_advance_of_ne _ _ ht hu hut, huw⟩
    · exact .inr ⟨t', hself, hw'⟩
    · exact absurd ⟨ht, hmin⟩ hwraps
  | trigger hf => exact .inl rfl
  | clear =>
    -- the step is not a lost trigger, so some request has yet to look at the flag
    by_contra hno
    refine hlost ⟨ht, hpos, fun u hu => ?_⟩
    by_contra huw
    rw [Bool.not_eq_false] at huw
    refine hno (.inr ⟨u, mem_advance_of_ne _ _ ht hu ?_, huw⟩)
    rintro rfl
    simp [Thread.willTrigger] at huw

theorem triggered_of_run (h : calls.machine.Run tr s)
    (hG : ∀ st ∈ tr, ¬ TriggerLost st ∧ ¬ CounterWraps st) : Triggered s := by
  refine h.invariant (I := fun _ s => Triggered s)
    (G := fun st => ¬ TriggerLost st ∧ ¬ CounterWraps st) ?_ ?_ hG
  · rintro ⟨m, ts⟩ ⟨⟨p, rfl⟩, rfl⟩ hpos
    exact (Int32.lt_irrefl hpos).elim
  · intro tr s e s' _ hs hstep hn
    rcases calls_next hn with ⟨t, rfl, ht, rfl⟩ | ⟨i, c, t, m', t', rfl, ht, heff, rfl⟩
    · intro hpos
      rcases hs hpos with hflag | ⟨u, hu, huw⟩
      · exact .inl hflag
      · exact .inr ⟨u, List.mem_append_left _ hu, huw⟩
    · exact triggered_step ht hs heff.loopMove hstep.1 hstep.2

/-- **No lost autoscaling trigger.** Never more than one metrics loop runs. In a run without a
lost trigger and a wrapped counter, a quiet function with requests in flight has exactly one. -/
theorem metrics_loop_of_run {tr : List (Machine.Step _ _)} {s : Pool FunctionMetadata Thread}
    (h : calls.machine.Run tr s) (hG : ∀ st ∈ tr, ¬ TriggerLost st ∧ ¬ CounterWraps st) :
    s.threads.countP Thread.isRunning ≤ 1 ∧
      ((∀ t ∈ s.threads, t.isQuiet = true) →
        s.threads.countP Thread.isLoop ≤ 1 ∧
          (0 < s.shared.inflightRequests → s.threads.countP Thread.isLoop = 1)) := by
  have harmed := oneArmed_of_run h
  have hle : s.threads.countP Thread.isArmed ≤ 1 := by
    rw [harmed]
    split <;> omega
  refine ⟨le_trans (List.countP_mono_left fun t _ hr => ?_) hle, fun hquiet => ?_⟩
  · cases t <;> simp_all [Thread.isArmed, Thread.isRunning]
  · -- in a quiet state the loops are the armed threads
    have hloops : s.threads.countP Thread.isLoop = s.threads.countP Thread.isArmed := by
      refine List.countP_congr fun t ht => ?_
      have hq := hquiet t ht
      cases t <;> simp_all [Thread.isLoop, Thread.isArmed, Thread.isRunning, Thread.isQuiet]
      all_goals rcases hq with rfl | rfl <;> simp
    refine ⟨hloops ▸ hle, fun hpos => ?_⟩
    rcases triggered_of_run h hG hpos with hflag | ⟨t, ht, hw⟩
    · rw [hloops, harmed, hflag]
      rfl
    · have hq := hquiet t ht
      cases t <;> simp_all [Thread.willTrigger, Thread.isQuiet]
      rcases hq with rfl | rfl <;> simp at hw

instance (st : Machine.Step (Pool FunctionMetadata Thread) (Threads.Event Thread Choice)) :
    Decidable (TriggerLost st) :=
  match st with
  | ⟨_, .run _ _, _⟩ => inferInstanceAs (Decidable (_ ∧ _ ∧ _))
  | ⟨_, .start _, _⟩ => inferInstanceAs (Decidable False)

instance (st : Machine.Step (Pool FunctionMetadata Thread) (Threads.Event Thread Choice)) :
    Decidable (CounterWraps st) :=
  match st with
  | ⟨_, .run _ _, _⟩ => inferInstanceAs (Decidable (_ ∧ _))
  | ⟨_, .start _, _⟩ => inferInstanceAs (Decidable False)

/-- A first request comes in; its loop reports once. -/
def firstRequest : List (Threads.Event Thread Choice) :=
  .start (.tryWarmStart .addInflight) :: runs 0 10 ++ runs 1 3

theorem metrics_loop_of_run_firstRequest :
    ∃ tr s, calls.machine.Run tr s ∧ 0 < s.shared.inflightRequests ∧
      (∀ t ∈ s.threads, t.isQuiet = true) ∧ s.threads.countP Thread.isLoop = 1 := by
  obtain ⟨tr, s, hrun, hG, hpos, hquiet⟩ := Machine.exists_run_of_play firstRequest
    (P := fun tr s => (∀ st ∈ tr, ¬ TriggerLost st ∧ ¬ CounterWraps st) ∧
      0 < s.shared.inflightRequests ∧
      ∀ t ∈ s.threads, t.isQuiet = true) fresh_init (by decide +kernel)
  exact ⟨tr, s, hrun, hpos, hquiet, ((metrics_loop_of_run hrun hG).2 hquiet).2 hpos⟩

/-- The first request is over when the loop looks. Before the loop clears the flag, a second
request counts itself and sees the flag set; then the loop stops. -/
def lostTrigger : List (Threads.Event Thread Choice) :=
  .start (.tryWarmStart .addInflight) :: runs 0 10 ++
    .start (.decreaseInflight false) :: runs 2 1 ++ runs 1 2 ++
    .start (.tryWarmStart .addInflight) :: runs 3 4 ++ runs 1 2 ++ runs 3 4

theorem not_metrics_loop_of_run : ¬ ∀ (tr : List (Machine.Step _ _))
    (s : Pool FunctionMetadata Thread), calls.machine.Run tr s →
      (∀ t ∈ s.threads, t.isQuiet = true) → 0 < s.shared.inflightRequests →
        s.threads.countP Thread.isLoop = 1 := by
  intro hall
  obtain ⟨tr, s, hrun, hquiet, hpos, hloop⟩ := Machine.exists_run_of_play lostTrigger
    (P := fun _ s => (∀ t ∈ s.threads, t.isQuiet = true) ∧ 0 < s.shared.inflightRequests ∧
      s.threads.countP Thread.isLoop = 0) fresh_init (by decide +kernel)
  exact absurd (hall tr s hrun hquiet hpos) (by rw [hloop]; decide)

end Dirigent.DataPlane
