import Dirigent.DataPlane.Locking

/-!
# Cold starts

A request that finds no active endpoint waits in the queue until `AddEndpoints` brings one. Adding
endpoints and waking the queue is one lock section, and so is the entry into the queue; but
`TryWarmStart` looks at the endpoint count before it takes the lock. When `AddEndpoints` comes
between the two, the request goes to sleep next to an endpoint.

**Theorem (`queue_empty_of_run`).** In a run where the count that a request has seen at zero is
still zero when the request enters the queue, nobody waits at a function with endpoints once all
calls have returned.

Whoever changes the endpoint list stores its length before it leaves the lock (`counted_of_run`),
so a request that has the lock and sees a count of zero is at a function without endpoints.
-/

namespace Dirigent.DataPlane

open Threads

namespace Thread

/-- `AddEndpoints` with its endpoints in the list, before it has emptied the queue. -/
def isWaking : Thread → Bool
  | .addEndpoints _ pc => pc = .storeCount ∨ pc = .dequeue
  | _ => false

/-- Not inside `TryWarmStart`, `AddEndpoints`, `DrainEndpoints` or `RemoveAllEndpoints`. -/
def isDone : Thread → Bool
  | .tryWarmStart pc => pc = .warm ∨ pc = .waiting
  | .addEndpoints _ pc => pc = .returned
  | .drainEndpoints _ (.returned _) => true
  | .drainEndpoints _ _ => false
  | .removeAllEndpoints pc => pc = .returned
  | _ => true

end Thread

/-- A request enters the queue although there are active endpoints by now. -/
def LateEnqueue (st : Machine.Step (Pool FunctionMetadata Thread) (Threads.Event Thread Choice)) :
    Prop :=
  match st.event with
  | .run i _ => st.src.threads[i]? = some (.tryWarmStart .pushBack) ∧
      st.src.shared.activeEndpointCount ≠ 0
  | .start _ => False

variable {m m' : FunctionMetadata} {i : ℕ} {t t' : Thread}

/-! ## The count of the endpoints -/

/-- A call that has changed the endpoint list and has yet to store its length. -/
def Thread.isCounting : Thread → Bool
  | .addEndpoints _ pc => pc = .storeCount
  | .drainEndpoints _ (.storeCount _) => true
  | .removeAllEndpoints pc => pc = .storeCount
  | _ => false

theorem mode_of_isCounting (h : t.isCounting = true) : t.mode = .writing := by
  simp only [Thread.isCounting] at h
  split at h
  · obtain rfl := of_decide_eq_true h
    rfl
  · rfl
  · obtain rfl := of_decide_eq_true h
    rfl
  · cases h

/-- How a step moves the endpoint list and its count. -/
inductive CountMove (m : FunctionMetadata) : Thread → FunctionMetadata → Thread → Prop
  | keep {t t' : Thread} {m' : FunctionMetadata} :
      m'.upstreamEndpoints = m.upstreamEndpoints →
      m'.activeEndpointCount = m.activeEndpointCount → t.isCounting = false →
      t'.isCounting = false → CountMove m t m' t'
  | change {t t' : Thread} {m' : FunctionMetadata} : t.mode = .writing → t.isCounting = false →
      t'.isCounting = true →
      (t' = .removeAllEndpoints .storeCount → m'.upstreamEndpoints = []) → CountMove m t m' t'
  | store {t t' : Thread} {n : ℤ} : t.isCounting = true → t'.isCounting = false →
      n = m.upstreamEndpoints.length ∨ t = .removeAllEndpoints .storeCount ∧ n = 0 →
      CountMove m t { m with activeEndpointCount := n } t'

theorem Effect.countMove (h : Effect m i t m' t') : CountMove m t m' t' := by
  cases h with
  | append | remove => exact .change rfl rfl rfl (by simp)
  | removeAll => exact .change rfl rfl rfl fun _ => rfl
  | addStoreCount | drainStoreCount => exact .store rfl rfl (.inl rfl)
  | removeAllStoreCount => exact .store rfl rfl (.inr ⟨rfl, rfl⟩)
  | _ => exact .keep rfl rfl rfl rfl

/-- The count is right unless a call is about to store it. -/
structure Counted (s : Pool FunctionMetadata Thread) : Prop where
  cleared : Thread.removeAllEndpoints .storeCount ∈ s.threads → s.shared.upstreamEndpoints = []
  counted : s.shared.activeEndpointCount = s.shared.upstreamEndpoints.length ∨
    ∃ t ∈ s.threads, t.isCounting = true

variable {ts : List Thread} {tr : List (Machine.Step _ _)} {s : Pool FunctionMetadata Thread}

theorem counted_step (ht : ts[i]? = some t) (hg : m.mutex.Guards (modes ts)) (h : Counted ⟨m, ts⟩)
    (hm : CountMove m t m' t') (hnew : ∀ u ∈ t.starts, u.isCounting = false) :
    Counted ⟨m', advance ts i t' t.starts⟩ := by
  have hself := mem_advance_self t' t.starts ht
  have hcases : ∀ {u : Thread}, u.isCounting = true → u ∈ advance ts i t' t.starts →
      u = t' ∨ u ∈ ts := by
    intro u hu hmem
    rcases mem_of_mem_advance hmem with rfl | hsame | hmem
    · exact .inl rfl
    · exact .inr hsame
    · simp [hnew u hmem] at hu
  cases hm with
  | keep hu hc hcount hcount' =>
    refine ⟨fun hmem => ?_, ?_⟩
    · rcases hcases rfl hmem with rfl | hmem
      · cases hcount'
      · exact hu.trans (h.cleared hmem)
    · rcases h.counted with heq | ⟨u, hmem, huc⟩
      · exact .inl (hc.trans (heq.trans (by rw [hu])))
      · refine .inr ⟨u, mem_advance_of_ne _ _ ht hmem ?_, huc⟩
        rintro rfl
        simp [hcount] at huc
  | change hw hcount hcount' hclear =>
    refine ⟨fun hmem => ?_, .inr ⟨t', hself, hcount'⟩⟩
    rcases hcases rfl hmem with heq | hmem
    · exact hclear heq.symm
    · -- nobody else can be in the lock
      obtain rfl := eq_of_writing hg ht hw hmem rfl
      cases hcount
  | store hcount hcount' hn =>
    refine ⟨fun hmem => ?_, .inl ?_⟩
    · rcases hcases rfl hmem with rfl | hmem
      · cases hcount'
      · exact h.cleared hmem
    · rcases hn with rfl | ⟨rfl, rfl⟩
      · rfl
      · show (0 : ℤ) = m.upstreamEndpoints.length
        rw [h.cleared (List.mem_of_getElem? ht)]
        rfl

theorem counted_of_run (h : calls.machine.Run tr s) : Counted s := by
  refine h.invariant (I := fun _ s => Counted s) (G := fun _ => True) ?_ ?_ fun _ _ => trivial
  · rintro ⟨m, ts⟩ ⟨⟨p, rfl⟩, rfl⟩
    exact ⟨fun hmem => absurd hmem List.not_mem_nil, .inl rfl⟩
  · intro tr s e s' hrun hs _ hn
    rcases calls_next hn with ⟨t, rfl, ht, rfl⟩ | ⟨i, c, t, m', t', rfl, ht, heff, rfl⟩
    · refine ⟨fun hmem => ?_, hs.counted.imp_right fun ⟨u, hu, huc⟩ =>
        ⟨u, List.mem_append_left _ hu, huc⟩⟩
      rcases List.mem_append.1 hmem with hmem | hmem
      · exact hs.cleared hmem
      · obtain rfl := List.mem_singleton.1 hmem
        cases ht
    · refine counted_step ht (guards_of_run hrun) hs heff.countMove fun u hu => ?_
      obtain rfl := eq_of_mem_starts hu
      rfl

/-- A call in a write section that does not change the list finds the right count. -/
theorem Counted.eq_length (h : Counted ⟨m, ts⟩) (hg : m.mutex.Guards (modes ts))
    (ht : ts[i]? = some t) (hw : t.mode = .writing) (hcount : t.isCounting = false) :
    m.activeEndpointCount = m.upstreamEndpoints.length := by
  rcases h.counted with heq | ⟨u, hu, huc⟩
  · exact heq
  · obtain rfl := eq_of_writing hg ht hw hu (mode_of_isCounting huc)
    simp [hcount] at huc

/-! ## The queue -/

/-- How a step moves the queue and the endpoint list. -/
inductive QueueMove (m : FunctionMetadata) (i : ℕ) :
    Thread → FunctionMetadata → Thread → Prop
  | keep {t t' : Thread} {m' : FunctionMetadata} :
      m'.upstreamEndpoints = m.upstreamEndpoints → m'.queue = m.queue →
      (t.isWaking = true → t'.isWaking = true) → QueueMove m i t m' t'
  | fewer {t t' : Thread} {m' : FunctionMetadata} :
      m'.upstreamEndpoints.Sublist m.upstreamEndpoints → m'.queue = m.queue →
      t.mode = .writing → t.isWaking = false → QueueMove m i t m' t'
  | wake {t t' : Thread} {m' : FunctionMetadata} : t'.isWaking = true → QueueMove m i t m' t'
  | woken {t t' : Thread} : m.upstreamEndpoints = [] ∨ m.queue = [] → QueueMove m i t m t'
  | enqueue : QueueMove m i (.tryWarmStart .pushBack) { m with queue := m.queue ++ [i] }
      (.tryWarmStart .incrementQueueDepth)

theorem Effect.queueMove (h : Effect m i t m' t') : QueueMove m i t m' t' := by
  cases h with
  | pushBack => exact .enqueue
  | append | dequeue => exact .wake rfl
  | dequeued hd => exact .woken hd
  | removeAll => exact .fewer (List.nil_sublist _) rfl rfl rfl
  | remove => exact .fewer (FunctionMetadata.removeByURL_sublist _ _ _) rfl rfl rfl
  | _ => exact .keep rfl rfl (by simp [Thread.isWaking])

/-- Nobody waits at a function with endpoints, unless somebody is about to be woken. -/
def Awake (s : Pool FunctionMetadata Thread) : Prop :=
  s.shared.upstreamEndpoints ≠ [] → s.shared.queue = [] ∨ ∃ t ∈ s.threads, t.isWaking = true

theorem mode_of_isWaking (h : t.isWaking = true) : t.mode = .writing := by
  cases t <;> simp only [Thread.isWaking, Bool.false_eq_true, decide_eq_true_eq] at h
  rcases h with rfl | rfl <;> rfl

theorem awake_step {c : Choice} (ht : ts[i]? = some t) (hg : m.mutex.Guards (modes ts))
    (hc : Counted ⟨m, ts⟩) (h : Awake ⟨m, ts⟩) (hm : QueueMove m i t m' t')
    (hG : ¬ LateEnqueue ⟨⟨m, ts⟩, .run i c, ⟨m', advance ts i t' t.starts⟩⟩) :
    Awake ⟨m', advance ts i t' t.starts⟩ := by
  have hself := mem_advance_self t' t.starts ht
  intro hne
  cases hm with
  | keep hu hq hw =>
    rcases h (hu ▸ hne) with hnil | ⟨u, hmem, huw⟩
    · exact .inl (hq.trans hnil)
    · by_cases hut : u = t
      · exact .inr ⟨t', hself, hw (hut ▸ huw)⟩
      · exact .inr ⟨u, mem_advance_of_ne _ _ ht hmem hut, huw⟩
  | fewer hu hq hmode hw =>
    have hne' : m.upstreamEndpoints ≠ [] := fun hnil => hne (List.sublist_nil.1 (hnil ▸ hu))
    rcases h hne' with hnil | ⟨u, hmem, huw⟩
    · exact .inl (hq.trans hnil)
    · -- a waking thread holds the lock as well, so it is the thread that moves
      obtain rfl := eq_of_writing hg ht hmode hmem (mode_of_isWaking huw)
      simp [hw] at huw
  | wake hw => exact .inr ⟨t', hself, hw⟩
  | woken hd => exact .inl (hd.resolve_left hne)
  | enqueue =>
    refine absurd ⟨ht, ?_⟩ hG
    show m.activeEndpointCount ≠ 0
    rw [hc.eq_length hg ht rfl rfl]
    exact fun hzero => hne (List.length_eq_zero_iff.1 (by exact_mod_cast hzero))

theorem awake_of_run (h : calls.machine.Run tr s) (hG : ∀ st ∈ tr, ¬ LateEnqueue st) : Awake s := by
  refine h.invariant (I := fun _ s => Awake s) (G := fun st => ¬ LateEnqueue st) ?_ ?_ hG
  · rintro ⟨m, ts⟩ ⟨⟨p, rfl⟩, rfl⟩ hne
    exact absurd rfl hne
  · intro tr s e s' hrun hs hstep hn
    rcases calls_next hn with ⟨t, rfl, ht, rfl⟩ | ⟨i, c, t, m', t', rfl, ht, heff, rfl⟩
    · intro hne
      exact (hs hne).imp_right fun ⟨u, hu, huw⟩ => ⟨u, List.mem_append_left _ hu, huw⟩
    · exact awake_step ht (guards_of_run hrun) (counted_of_run hrun) hs heff.queueMove hstep

/-- **No lost cold-start wake-up.** In a run without a late entry into the queue, once all calls
have returned nobody waits at a function that has endpoints. -/
theorem queue_empty_of_run {tr : List (Machine.Step _ _)} {s : Pool FunctionMetadata Thread}
    (h : calls.machine.Run tr s) (hG : ∀ st ∈ tr, ¬ LateEnqueue st)
    (hdone : ∀ t ∈ s.threads, t.isDone = true) (hne : s.shared.upstreamEndpoints ≠ []) :
    s.shared.queue = [] := by
  rcases awake_of_run h hG hne with hq | ⟨t, ht, hw⟩
  · exact hq
  · have hd := hdone t ht
    cases t <;> simp_all [Thread.isWaking, Thread.isDone]

instance (st : Machine.Step (Pool FunctionMetadata Thread) (Threads.Event Thread Choice)) :
    Decidable (LateEnqueue st) :=
  match st with
  | ⟨_, .run _ _, _⟩ => inferInstanceAs (Decidable (_ ∧ _))
  | ⟨_, .start _, _⟩ => inferInstanceAs (Decidable False)

/-- A request waits, and a sandbox comes up. -/
def coldStart : List (Threads.Event Thread Choice) :=
  .start (.tryWarmStart .addInflight) :: runs 0 10 ++
    .start (.addEndpoints [sandboxA] .lock) :: runs 2 6

theorem queue_empty_of_run_coldStart :
    ∃ tr s, calls.machine.Run tr s ∧ s.shared.upstreamEndpoints ≠ [] ∧ s.shared.started = [0] ∧
      s.shared.queue = [] := by
  obtain ⟨tr, s, hrun, hG, hdone, hne, hstarted⟩ := Machine.exists_run_of_play coldStart
    (P := fun tr s => (∀ st ∈ tr, ¬ LateEnqueue st) ∧ (∀ t ∈ s.threads, t.isDone = true) ∧
      s.shared.upstreamEndpoints ≠ [] ∧ s.shared.started = [0]) fresh_init (by decide +kernel)
  exact ⟨tr, s, hrun, hne, hstarted, queue_empty_of_run hrun hG hdone hne⟩

/-- A request has found no endpoint and is about to take the lock when a sandbox comes up. -/
def lostWakeUp : List (Threads.Event Thread Choice) :=
  .start (.tryWarmStart .addInflight) :: runs 0 6 ++
    .start (.addEndpoints [sandboxA] .lock) :: runs 2 5 ++ runs 0 4

theorem not_queue_empty_of_run : ¬ ∀ (tr : List (Machine.Step _ _))
    (s : Pool FunctionMetadata Thread), calls.machine.Run tr s →
      (∀ t ∈ s.threads, t.isDone = true) → s.shared.upstreamEndpoints ≠ [] →
        s.shared.queue = [] := by
  intro hall
  obtain ⟨tr, s, hrun, hdone, hne, hqueue⟩ := Machine.exists_run_of_play lostWakeUp
    (P := fun _ s => (∀ t ∈ s.threads, t.isDone = true) ∧ s.shared.upstreamEndpoints ≠ [] ∧
      s.shared.queue = [0]) fresh_init (by decide +kernel)
  exact absurd (hall tr s hrun hdone hne) (by rw [hqueue]; decide)

end Dirigent.DataPlane
