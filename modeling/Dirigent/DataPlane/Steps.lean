import Dirigent.DataPlane.Calls

/-!
# What a step of a call can do

`Effect m i t m' t'` lists every step that thread `i` in local state `t` can make, with what it
found and what it changed. `Thread.step_effect` says that the list is complete; the invariants of
the data plane are then proved by cases on it.
-/

namespace Dirigent.DataPlane

/-- The steps of a thread: from metadata `m` and local state `t` to `m'` and `t'`. -/
inductive Effect (m : FunctionMetadata) (i : ℕ) : Thread → FunctionMetadata → Thread → Prop
  -- TryWarmStart
  | addInflight : Effect m i (.tryWarmStart .addInflight)
      { m with inflightRequests := m.inflightRequests + 1 } (.tryWarmStart .incrementInflight)
  | incrementInflight : Effect m i (.tryWarmStart .incrementInflight)
      { m with statistics.inflight := m.statistics.inflight + 1 } (.tryWarmStart .loadTriggered)
  | seeTriggered : m.autoscalingTriggered = true →
      Effect m i (.tryWarmStart .loadTriggered) m (.tryWarmStart .loadActive)
  | seeUntriggered : m.autoscalingTriggered = false →
      Effect m i (.tryWarmStart .loadTriggered) m (.tryWarmStart .swapTriggered)
  | swapFails : m.autoscalingTriggered = true →
      Effect m i (.tryWarmStart .swapTriggered) m (.tryWarmStart .loadTriggered)
  | trigger : m.autoscalingTriggered = false → Effect m i (.tryWarmStart .swapTriggered)
      { m with autoscalingTriggered := true } (.tryWarmStart .startLoop)
  | startLoop : Effect m i (.tryWarmStart .startLoop) m (.tryWarmStart .loadActive)
  | seeInactive : m.activeEndpointCount = 0 →
      Effect m i (.tryWarmStart .loadActive) m (.tryWarmStart .lock)
  | seeActive : m.activeEndpointCount ≠ 0 →
      Effect m i (.tryWarmStart .loadActive) m (.tryWarmStart .warm)
  | warmLock {mutex : RWMutex} : m.mutex.lock i = some mutex →
      Effect m i (.tryWarmStart .lock) { m with mutex } (.tryWarmStart .pushBack)
  | pushBack : Effect m i (.tryWarmStart .pushBack)
      { m with queue := m.queue ++ [i] } (.tryWarmStart .incrementQueueDepth)
  | warmIncrementQueueDepth : Effect m i (.tryWarmStart .incrementQueueDepth)
      { m with statistics.queueDepth := m.statistics.queueDepth + 1 } (.tryWarmStart .unlock)
  | warmUnlock : Effect m i (.tryWarmStart .unlock) m.unlock (.tryWarmStart .waiting)
  -- DecreaseInflight
  | decreaseInflight : Effect m i (.decreaseInflight false)
      { m with inflightRequests := m.inflightRequests - 1 } (.decreaseInflight true)
  -- sendMetricsToAutoscaler
  | loopLock {mutex : RWMutex} : m.mutex.lock i = some mutex →
      Effect m i (.sendMetricsToAutoscaler .lock) { m with mutex } (.sendMetricsToAutoscaler .load)
  | seeIdle : m.inflightRequests = 0 →
      Effect m i (.sendMetricsToAutoscaler .load) m (.sendMetricsToAutoscaler .clear)
  | seeBusy : m.inflightRequests ≠ 0 →
      Effect m i (.sendMetricsToAutoscaler .load) m (.sendMetricsToAutoscaler (.unlock false))
  | clear : Effect m i (.sendMetricsToAutoscaler .clear) { m with autoscalingTriggered := false }
      (.sendMetricsToAutoscaler (.unlock true))
  | loopStop : Effect m i (.sendMetricsToAutoscaler (.unlock true)) m.unlock
      (.sendMetricsToAutoscaler .exited)
  | loopGoOn : Effect m i (.sendMetricsToAutoscaler (.unlock false)) m.unlock
      (.sendMetricsToAutoscaler .tick)
  | tick : Effect m i (.sendMetricsToAutoscaler .tick) m (.sendMetricsToAutoscaler .lock)
  -- AddEndpoints
  | addLock {es : List EndpointInfo} {mutex : RWMutex} : m.mutex.lock i = some mutex →
      Effect m i (.addEndpoints es .lock) { m with mutex } (.addEndpoints es .append)
  | append {es : List EndpointInfo} : Effect m i (.addEndpoints es .append)
      (m.addToEndpointList es) (.addEndpoints es .storeCount)
  | addStoreCount {es : List EndpointInfo} : Effect m i (.addEndpoints es .storeCount)
      { m with activeEndpointCount := m.upstreamEndpoints.length } (.addEndpoints es .dequeue)
  | dequeue {es : List EndpointInfo} {k : ℕ} {queue : List ℕ} :
      m.upstreamEndpoints ≠ [] → m.queue = k :: queue → Effect m i (.addEndpoints es .dequeue)
        { m with queue := queue, started := m.started ++ [k] } (.addEndpoints es .dequeue)
  | dequeued {es : List EndpointInfo} : m.upstreamEndpoints = [] ∨ m.queue = [] →
      Effect m i (.addEndpoints es .dequeue) m (.addEndpoints es .unlock)
  | addUnlock {es : List EndpointInfo} : Effect m i (.addEndpoints es .unlock) m.unlock
      (.addEndpoints es .returned)
  -- RemoveAllEndpoints
  | removeAllLock {mutex : RWMutex} : m.mutex.lock i = some mutex →
      Effect m i (.removeAllEndpoints .lock) { m with mutex } (.removeAllEndpoints .clear)
  | removeAll : Effect m i (.removeAllEndpoints .clear) { m with upstreamEndpoints := [] }
      (.removeAllEndpoints .storeCount)
  | removeAllStoreCount : Effect m i (.removeAllEndpoints .storeCount)
      { m with activeEndpointCount := 0 } (.removeAllEndpoints .unlock)
  | removeAllUnlock : Effect m i (.removeAllEndpoints .unlock) m.unlock
      (.removeAllEndpoints .returned)
  -- DrainEndpoints
  | drainLock {es : List EndpointInfo} {mutex : RWMutex} : m.mutex.lock i = some mutex →
      Effect m i (.drainEndpoints es .lock) { m with mutex }
        (.drainEndpoints es (.mark { todo := m.upstreamEndpoints }))
  | marked {es : List EndpointInfo} {d : Draining} : d.todo = [] →
      Effect m i (.drainEndpoints es (.mark d)) m (.drainEndpoints es (.remove d))
  | markAgain {es : List EndpointInfo} {d : Draining} {e : ℕ} {todo : List ℕ} :
      d.todo = e :: todo → isDrained es (m.heap e) = true → (m.heap e).drained = true →
      Effect m i (.drainEndpoints es (.mark d)) (m.modify e fun ep => { ep with drained := true })
        (.drainEndpoints es (.mark { d with todo := todo, covered := e :: d.covered }))
  | mark {es : List EndpointInfo} {d : Draining} {e : ℕ} {todo : List ℕ} :
      d.todo = e :: todo → isDrained es (m.heap e) = true → (m.heap e).drained = false →
      Effect m i (.drainEndpoints es (.mark d)) (m.modify e fun ep => { ep with drained := true })
        (.drainEndpoints es (.makeCallback e { d with todo := todo }))
  | passOver {es : List EndpointInfo} {d : Draining} {e : ℕ} {todo : List ℕ} :
      d.todo = e :: todo → isDrained es (m.heap e) = false →
      Effect m i (.drainEndpoints es (.mark d)) m
        (.drainEndpoints es (.mark { d with todo := todo }))
  | makeCallback {es : List EndpointInfo} {e : ℕ} {d : Draining} :
      Effect m i (.drainEndpoints es (.makeCallback e d))
        (m.modify e fun ep => { ep with drainingCallback := some 0 })
        (.drainEndpoints es (.loadInFlight e { d with barriers := d.barriers ++ [e] }))
  | seeUnused {es : List EndpointInfo} {e : ℕ} {d : Draining} : (m.heap e).inFlight = 0 →
      Effect m i (.drainEndpoints es (.loadInFlight e d)) m
        (.drainEndpoints es (.signal e { d with covered := e :: d.covered }))
  | seeUsed {es : List EndpointInfo} {e : ℕ} {d : Draining} : (m.heap e).inFlight ≠ 0 →
      Effect m i (.drainEndpoints es (.loadInFlight e d)) m
        (.drainEndpoints es (.mark { d with covered := e :: d.covered }))
  | signal {es : List EndpointInfo} {e : ℕ} {d : Draining} : (m.heap e).drainingCallback = some 0 →
      Effect m i (.drainEndpoints es (.signal e d))
        (m.modify e fun ep => { ep with drainingCallback := some 1 }) (.drainEndpoints es (.mark d))
  | remove {es : List EndpointInfo} {d : Draining} : Effect m i (.drainEndpoints es (.remove d))
      { m with
        upstreamEndpoints := FunctionMetadata.removeByURL m.heap es m.upstreamEndpoints }
      (.drainEndpoints es (.storeCount d))
  | drainStoreCount {es : List EndpointInfo} {d : Draining} :
      Effect m i (.drainEndpoints es (.storeCount d))
        { m with activeEndpointCount := m.upstreamEndpoints.length }
        (.drainEndpoints es (.unlock d))
  | drainUnlock {es : List EndpointInfo} {d : Draining} :
      Effect m i (.drainEndpoints es (.unlock d)) m.unlock (.drainEndpoints es (.wait d))
  | drained {es : List EndpointInfo} {d : Draining} : d.barriers = [] →
      Effect m i (.drainEndpoints es (.wait d)) m (.drainEndpoints es (.returned d))
  | pass {es : List EndpointInfo} {d : Draining} {e k : ℕ} : d.barriers[k]? = some e →
      (m.heap e).drainingCallback = some 1 → Effect m i (.drainEndpoints es (.wait d))
        (m.modify e fun ep => { ep with drainingCallback := some 0 })
        (.drainEndpoints es (.wait { d with barriers := d.barriers.eraseIdx k }))
  -- DoLoadBalancing
  | incrementQueueDepth : Effect m i (.invocation .incrementQueueDepth)
      { m with statistics.queueDepth := m.statistics.queueDepth + 1 }
      (.invocation (.rlock loadBalancingRetries))
  | giveUp : Effect m i (.invocation (.rlock 0)) m (.invocation (.decrementQueueDepth none))
  | rlock {k : ℕ} {mutex : RWMutex} : m.mutex.rlock i = some mutex →
      Effect m i (.invocation (.rlock (k + 1))) { m with mutex } (.invocation (.select k))
  | selectNone {k : ℕ} : m.upstreamEndpoints = [] →
      Effect m i (.invocation (.select k)) m (.invocation (.runlock k none))
  | select {k e : ℕ} : e ∈ m.upstreamEndpoints →
      Effect m i (.invocation (.select k)) m (.invocation (.runlock k (some e)))
  | crash {k : ℕ} : Effect m i (.invocation (.runlock k none)) (m.runlock i) (.invocation .crashed)
  | runlock {k e : ℕ} : Effect m i (.invocation (.runlock k (some e))) (m.runlock i)
      (.invocation (.waitForCapacity k e))
  | timeout {k e : ℕ} : Effect m i (.invocation (.waitForCapacity k e)) m (.invocation (.rlock k))
  | takeToken {k e : ℕ} : 0 < (m.heap e).capacity →
      Effect m i (.invocation (.waitForCapacity k e))
        (m.modify e fun ep => { ep with capacity := ep.capacity - 1 })
          (.invocation (.addInFlight e))
  | addInFlight {e : ℕ} : Effect m i (.invocation (.addInFlight e))
      (m.modify e fun ep => { ep with inFlight := ep.inFlight + 1 })
      (.invocation (.decrementQueueDepth (some e)))
  | gone : Effect m i (.invocation (.decrementQueueDepth none))
      { m with statistics.queueDepth := m.statistics.queueDepth - 1 } (.invocation .gone)
  | forward {e : ℕ} : Effect m i (.invocation (.decrementQueueDepth (some e)))
      { m with statistics.queueDepth := m.statistics.queueDepth - 1 } (.invocation (.proxying e))
  | answered {e : ℕ} : Effect m i (.invocation (.proxying e)) m (.invocation (.giveBack e))
  -- giveBackCCCapacity
  | giveBack {e : ℕ} : Effect m i (.invocation (.giveBack e))
      (m.modify e fun ep => { ep with inFlight := ep.inFlight - 1 })
      (.invocation (.loadDrained e ((m.heap e).inFlight - 1)))
  | seeLastOfDrained {e : ℕ} : (m.heap e).drained = true →
      Effect m i (.invocation (.loadDrained e 0)) m (.invocation (.loadCallback e))
  | seeNotLast {e : ℕ} {v : ℤ} : (m.heap e).drained = false ∨ v ≠ 0 →
      Effect m i (.invocation (.loadDrained e v)) m (.invocation (.returnToken e))
  | noCallback {e : ℕ} : (m.heap e).drainingCallback = none →
      Effect m i (.invocation (.loadCallback e)) m (.invocation (.blocked e))
  | loadCallback {e : ℕ} : (m.heap e).drainingCallback ≠ none →
      Effect m i (.invocation (.loadCallback e)) m (.invocation (.sendCallback e))
  | sendCallback {e : ℕ} : (m.heap e).drainingCallback = some 0 →
      Effect m i (.invocation (.sendCallback e))
        (m.modify e fun ep => { ep with drainingCallback := some 1 })
        (.invocation (.returnToken e))
  | returnToken {e : ℕ} : (m.heap e).capacity < m.sandboxParallelism →
      Effect m i (.invocation (.returnToken e))
        (m.modify e fun ep => { ep with capacity := ep.capacity + 1 }) (.invocation .returned)

variable {m m' : FunctionMetadata} {i : ℕ} {c : Choice}

theorem tryWarmStart_effect {pc pc' : WarmStart} (h : tryWarmStart m i pc = some (m', pc')) :
    Effect m i (.tryWarmStart pc) m' (.tryWarmStart pc') := by
  cases pc <;> simp only [tryWarmStart, Option.some.injEq, Prod.mk.injEq, reduceCtorEq] at h
  case addInflight => obtain ⟨rfl, rfl⟩ := h; exact .addInflight
  case incrementInflight => obtain ⟨rfl, rfl⟩ := h; exact .incrementInflight
  case loadTriggered =>
    obtain ⟨rfl, rfl⟩ := h
    split
    · exact .seeTriggered ‹_›
    · exact .seeUntriggered (Bool.eq_false_of_not_eq_true ‹_›)
  case swapTriggered =>
    split at h <;> cases h
    · exact .swapFails ‹_›
    · exact .trigger (Bool.eq_false_of_not_eq_true ‹_›)
  case startLoop => obtain ⟨rfl, rfl⟩ := h; exact .startLoop
  case loadActive =>
    obtain ⟨rfl, rfl⟩ := h
    split
    · exact .seeInactive ‹_›
    · exact .seeActive ‹_›
  case lock =>
    obtain ⟨m₁, hm, h⟩ := Option.map_eq_some_iff.1 h
    cases h
    obtain ⟨mutex, hl, rfl⟩ := Option.map_eq_some_iff.1 hm
    exact .warmLock hl
  case pushBack => obtain ⟨rfl, rfl⟩ := h; exact .pushBack
  case incrementQueueDepth => obtain ⟨rfl, rfl⟩ := h; exact .warmIncrementQueueDepth
  case unlock => obtain ⟨rfl, rfl⟩ := h; exact .warmUnlock

theorem sendMetricsToAutoscaler_effect {pc pc' : MetricsLoop}
    (h : sendMetricsToAutoscaler m i pc = some (m', pc')) :
    Effect m i (.sendMetricsToAutoscaler pc) m' (.sendMetricsToAutoscaler pc') := by
  cases pc <;>
    simp only [sendMetricsToAutoscaler, Option.some.injEq, Prod.mk.injEq, reduceCtorEq] at h
  case lock =>
    obtain ⟨m₁, hm, h⟩ := Option.map_eq_some_iff.1 h
    cases h
    obtain ⟨mutex, hl, rfl⟩ := Option.map_eq_some_iff.1 hm
    exact .loopLock hl
  case load =>
    obtain ⟨rfl, rfl⟩ := h
    split
    · exact .seeIdle ‹_›
    · exact .seeBusy ‹_›
  case clear => obtain ⟨rfl, rfl⟩ := h; exact .clear
  case unlock toBreak =>
    obtain ⟨rfl, rfl⟩ := h
    cases toBreak
    · exact .loopGoOn
    · exact .loopStop
  case tick => obtain ⟨rfl, rfl⟩ := h; exact .tick

theorem addEndpoints_effect {es : List EndpointInfo} {pc pc' : Add}
    (h : addEndpoints es m i pc = some (m', pc')) :
    Effect m i (.addEndpoints es pc) m' (.addEndpoints es pc') := by
  cases pc <;> simp only [addEndpoints, Option.some.injEq, Prod.mk.injEq, reduceCtorEq] at h
  case lock =>
    obtain ⟨m₁, hm, h⟩ := Option.map_eq_some_iff.1 h
    cases h
    obtain ⟨mutex, hl, rfl⟩ := Option.map_eq_some_iff.1 hm
    exact .addLock hl
  case append => obtain ⟨rfl, rfl⟩ := h; exact .append
  case storeCount => obtain ⟨rfl, rfl⟩ := h; exact .addStoreCount
  case dequeue =>
    split at h <;> cases h
    · next hu hq => exact .dequeue (by simp [hu]) hq
    · next hnot =>
      refine .dequeued ?_
      cases hu : m.upstreamEndpoints with
      | nil => exact .inl rfl
      | cons e es =>
        cases hq : m.queue with
        | nil => exact .inr rfl
        | cons k queue => exact absurd hq (hnot e es k queue hu)
  case unlock => obtain ⟨rfl, rfl⟩ := h; exact .addUnlock

theorem removeAllEndpoints_effect {pc pc' : RemoveAll}
    (h : removeAllEndpoints m i pc = some (m', pc')) :
    Effect m i (.removeAllEndpoints pc) m' (.removeAllEndpoints pc') := by
  cases pc <;> simp only [removeAllEndpoints, Option.some.injEq, Prod.mk.injEq, reduceCtorEq] at h
  case lock =>
    obtain ⟨m₁, hm, h⟩ := Option.map_eq_some_iff.1 h
    cases h
    obtain ⟨mutex, hl, rfl⟩ := Option.map_eq_some_iff.1 hm
    exact .removeAllLock hl
  case clear => obtain ⟨rfl, rfl⟩ := h; exact .removeAll
  case storeCount => obtain ⟨rfl, rfl⟩ := h; exact .removeAllStoreCount
  case unlock => obtain ⟨rfl, rfl⟩ := h; exact .removeAllUnlock

theorem sendCallback_eq_some {e : ℕ} (h : m.sendCallback e = some m') :
    (m.heap e).drainingCallback = some 0 ∧
      m' = m.modify e fun ep => { ep with drainingCallback := some 1 } := by
  simp only [FunctionMetadata.sendCallback, Option.ite_none_right_eq_some, Option.some.injEq] at h
  exact ⟨h.1, h.2.symm⟩

theorem receiveCallback_eq_some {e : ℕ} (h : m.receiveCallback e = some m') :
    (m.heap e).drainingCallback = some 1 ∧
      m' = m.modify e fun ep => { ep with drainingCallback := some 0 } := by
  simp only [FunctionMetadata.receiveCallback, Option.ite_none_right_eq_some,
    Option.some.injEq] at h
  exact ⟨h.1, h.2.symm⟩

theorem drainEndpoints_effect {es : List EndpointInfo} {pc pc' : Drain}
    (h : drainEndpoints es m i c pc = some (m', pc')) :
    Effect m i (.drainEndpoints es pc) m' (.drainEndpoints es pc') := by
  cases pc with
  | lock =>
    obtain ⟨m₁, hm, h⟩ := Option.map_eq_some_iff.1 h
    cases h
    obtain ⟨mutex, hl, rfl⟩ := Option.map_eq_some_iff.1 hm
    exact .drainLock hl
  | mark d =>
    simp only [drainEndpoints] at h
    split at h
    · cases h
      exact .marked ‹_›
    · split at h <;> cases h
      · split
        · exact .markAgain ‹_› ‹_› ‹_›
        · exact .mark ‹_› ‹_› (Bool.eq_false_of_not_eq_true ‹_›)
      · exact .passOver ‹_› (Bool.eq_false_of_not_eq_true ‹_›)
  | makeCallback e d => cases h; exact .makeCallback
  | loadInFlight e d =>
    cases h
    split
    · exact .seeUnused ‹_›
    · exact .seeUsed ‹_›
  | signal e d =>
    obtain ⟨m₁, hm, h⟩ := Option.map_eq_some_iff.1 h
    cases h
    obtain ⟨hc, rfl⟩ := sendCallback_eq_some hm
    exact .signal hc
  | remove d => cases h; exact .remove
  | storeCount d => cases h; exact .drainStoreCount
  | unlock d => cases h; exact .drainUnlock
  | wait d =>
    simp only [drainEndpoints] at h
    split at h
    · cases h
      exact .drained ‹_›
    · split at h
      · obtain ⟨e, he, h⟩ := Option.bind_eq_some_iff.1 h
        obtain ⟨m₁, hm, h⟩ := Option.map_eq_some_iff.1 h
        cases h
        obtain ⟨hc, rfl⟩ := receiveCallback_eq_some hm
        exact .pass he hc
      · cases h
  | returned d => cases h

theorem invocation_effect {pc pc' : Invocation} (h : invocation m i c pc = some (m', pc')) :
    Effect m i (.invocation pc) m' (.invocation pc') := by
  cases pc with
  | incrementQueueDepth =>
    cases h; exact .incrementQueueDepth
  | rlock retries =>
    cases retries with
    | zero => cases h; exact .giveUp
    | succ k =>
      obtain ⟨m₁, hm, h⟩ := Option.map_eq_some_iff.1 h
      cases h
      obtain ⟨mutex, hl, rfl⟩ := Option.map_eq_some_iff.1 hm
      exact .rlock hl
  | select k =>
    obtain ⟨endpoint, hp, h⟩ := Option.map_eq_some_iff.1 h
    cases h
    simp only [FunctionMetadata.pick] at hp
    split at hp <;>
      (obtain ⟨hu, rfl⟩ := (Option.ite_none_right_eq_some.1 hp).imp_right Option.some.inj)
    · exact .select hu
    · exact .selectNone hu
  | runlock k endpoint =>
    cases endpoint <;> cases h
    · exact .crash
    · exact .runlock
  | waitForCapacity k e =>
    simp only [invocation] at h
    split at h
    · cases h
      exact .timeout
    · obtain ⟨m₁, hm, h⟩ := Option.map_eq_some_iff.1 h
      cases h
      obtain ⟨hc, rfl⟩ := (Option.ite_none_right_eq_some.1 hm).imp_right Option.some.inj
      exact .takeToken hc
  | addInFlight e => cases h; exact .addInFlight
  | decrementQueueDepth endpoint =>
    cases endpoint <;> cases h
    · exact .gone
    · exact .forward
  | proxying e => cases h; exact .answered
  | giveBack e => cases h; exact .giveBack
  | loadDrained e v =>
    cases h
    split
    · next hv =>
      obtain ⟨hd, rfl⟩ := hv
      exact .seeLastOfDrained hd
    · next hv =>
      refine .seeNotLast ?_
      rw [not_and_or, Bool.not_eq_true] at hv
      exact hv
  | loadCallback e =>
    cases h
    split
    · exact .noCallback ‹_›
    · exact .loadCallback ‹_›
  | sendCallback e =>
    obtain ⟨m₁, hm, h⟩ := Option.map_eq_some_iff.1 h
    cases h
    obtain ⟨hc, rfl⟩ := sendCallback_eq_some hm
    exact .sendCallback hc
  | returnToken e =>
    obtain ⟨m₁, hm, h⟩ := Option.map_eq_some_iff.1 h
    cases h
    obtain ⟨hc, rfl⟩ := (Option.ite_none_right_eq_some.1 hm).imp_right Option.some.inj
    exact .returnToken hc
  | returned | gone | crashed | blocked e => cases h

/-- Every step of a thread is one of the listed ones. -/
theorem Thread.step_effect {t t' : Thread} (h : t.step m i c = some (m', t')) :
    Effect m i t m' t' := by
  cases t with
  | decreaseInflight returned =>
    cases returned with
    | false => cases h; exact .decreaseInflight
    | true => cases h
  | tryWarmStart pc =>
    obtain ⟨⟨m₁, pc'⟩, hpc, h⟩ := Option.map_eq_some_iff.1 h
    cases h
    exact tryWarmStart_effect hpc
  | sendMetricsToAutoscaler pc =>
    obtain ⟨⟨m₁, pc'⟩, hpc, h⟩ := Option.map_eq_some_iff.1 h
    cases h
    exact sendMetricsToAutoscaler_effect hpc
  | addEndpoints es pc =>
    obtain ⟨⟨m₁, pc'⟩, hpc, h⟩ := Option.map_eq_some_iff.1 h
    cases h
    exact addEndpoints_effect hpc
  | removeAllEndpoints pc =>
    obtain ⟨⟨m₁, pc'⟩, hpc, h⟩ := Option.map_eq_some_iff.1 h
    cases h
    exact removeAllEndpoints_effect hpc
  | drainEndpoints es pc =>
    obtain ⟨⟨m₁, pc'⟩, hpc, h⟩ := Option.map_eq_some_iff.1 h
    cases h
    exact drainEndpoints_effect hpc
  | invocation pc =>
    obtain ⟨⟨m₁, pc'⟩, hpc, h⟩ := Option.map_eq_some_iff.1 h
    cases h
    exact invocation_effect hpc

/-- What a step of the calls can do: a call comes in, or one thread moves. -/
theorem calls_next {s s' : Pool FunctionMetadata Thread} {e : Threads.Event Thread Choice}
    (h : calls.machine.next s e = some s') :
    (∃ t, e = .start t ∧ t.isCall = true ∧ s' = ⟨s.shared, s.threads ++ [t]⟩) ∨
    (∃ i c t m' t', e = .run i c ∧ s.threads[i]? = some t ∧ Effect s.shared i t m' t' ∧
      s' = ⟨m', Threads.advance s.threads i t' t.starts⟩) := by
  rcases Threads.next_cases h with ⟨a, t, rfl, ha, rfl⟩ |
    ⟨i, c, t, m', t', new, rfl, ht, hstep, rfl⟩
  · simp only [calls, Option.ite_none_right_eq_some, Option.some.injEq] at ha
    obtain ⟨hcall, rfl⟩ := ha
    exact .inl ⟨a, rfl, hcall, rfl⟩
  · obtain ⟨⟨m₁, t₁⟩, hmove, heq⟩ := Option.map_eq_some_iff.1 hstep
    cases heq
    exact .inr ⟨i, c, t, m₁, t₁, rfl, ht, Thread.step_effect hmove, rfl⟩

theorem eq_of_mem_starts {t u : Thread} (h : u ∈ t.starts) :
    u = .sendMetricsToAutoscaler .lock := by
  simp only [Thread.starts] at h
  split at h
  · exact List.mem_singleton.1 h
  · cases h

end Dirigent.DataPlane
