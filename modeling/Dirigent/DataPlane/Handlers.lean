import Dirigent.DataPlane.Steps
import Mathlib.Data.BitVec

/-!
# The handlers of requests

A request as the proxies handle it: `createInvocationHandler` of the synchronous proxy and
`fireRequest` of the asynchronous one. Both take the metadata of the function, try a warm start,
wait for a cold start where there is no endpoint, balance the load, forward the request, and leave
through their deferred calls. A goroutine reports on the cold-start channel when the client of a
synchronous request is gone.

When the load balancer finds no endpoint at all, a nil pointer is dereferenced. The deferred calls
are made; then the HTTP server recovers from the panic of a handler, while a panic in `fireRequest`
ends the process.

Three counters say how many requests there are (`Task.isInflight`, `Task.isCounted`,
`Task.isQueued`). Each statement that changes one of them makes the same change to the number of
requests.

* **`counters_conserved`** — the counters are these numbers, in every reachable state.
-/

namespace Dirigent.DataPlane

inductive ColdStartOutcome
  | successful
  | canceled
  deriving DecidableEq, Repr

/-- The two proxies. -/
inductive ProxyMode
  | sync
  | async
  deriving DecidableEq, Repr

/-- How a handler ends: the service does not exist, the client is gone, no endpoint had capacity,
the request was forwarded, or the handler has panicked. -/
inductive Exit
  | notDeployed
  | canceled
  | gone
  | forwarded
  | panicked
  deriving DecidableEq, Repr

inductive Handler
  | getDeployment
  | tryWarmStart (pc : WarmStart)
  /-- `go contextTerminationHandler(..)` -/
  | startTermination (cold : Bool)
  /-- `<-coldStartChannel` -/
  | receive
  | decrementQueueDepth (outcome : ColdStartOutcome)
  | invocation (pc : Invocation)
  /-- The deferred call of `DoLoadBalancing`, after a panic. -/
  | unwind
  | decreaseInflight (e : Exit)
  | decrementInflight (e : Exit)
  | returned (e : Exit)
  deriving DecidableEq, Repr

/-- The goroutines of the data plane that work with the metadata of one function. -/
inductive Task
  | request (mode : ProxyMode) (pc : Handler)
  /-- `contextTerminationHandler` of a request, which waits for a cold start or does not. -/
  | contextTermination (mode : ProxyMode) (request : ℕ) (cold : Bool) (returned : Bool)
  /-- The calls that change the endpoints, and the metrics loop. -/
  | endpoints (t : Thread)
  deriving DecidableEq, Repr

structure Proxy where
  metadata : FunctionMetadata
  /-- What is in the buffer of the cold-start channel of each request. -/
  coldStart : ℕ → Option ColdStartOutcome := fun _ => none
  panicked : Bool := false

namespace Proxy

/-- Send on the cold-start channel of a request: blocks while the buffer is full. -/
def send (s : Proxy) (k : ℕ) (outcome : ColdStartOutcome) : Option Proxy :=
  if s.coldStart k = none then
    some { s with coldStart := Function.update s.coldStart k (some outcome) } else none

end Proxy

/-- What the handlers leave open: whether the service exists, and the choices of the calls. -/
inductive Decision
  | call (c : Choice)
  | notDeployed
  deriving DecidableEq, Repr

def Decision.choice : Decision → Choice
  | .call c => c
  | .notDeployed => .go

/-- A statement of the handler of request `i`. -/
def handle (s : Proxy) (i : ℕ) (mode : ProxyMode) (c : Decision) :
    Handler → Option (Proxy × Handler × List Task)
  | .getDeployment =>
    if c = .notDeployed then some (s, .returned .notDeployed, [])
    else some (s, .tryWarmStart .addInflight, [])
  | .tryWarmStart .warm => some (s, .startTermination false, [])
  | .tryWarmStart .waiting => some (s, .startTermination true, [])
  | .tryWarmStart pc => (DataPlane.tryWarmStart s.metadata i pc).map fun r =>
      ({ s with metadata := r.1 }, .tryWarmStart r.2,
        (Thread.starts (.tryWarmStart pc)).map .endpoints)
  | .startTermination cold =>
    some (s, if cold then .receive else .invocation .incrementQueueDepth,
      [.contextTermination mode i cold false])
  | .receive => (s.coldStart i).map fun outcome =>
      ({ s with coldStart := Function.update s.coldStart i none }, .decrementQueueDepth outcome, [])
  | .decrementQueueDepth outcome =>
    some ({ s with metadata.statistics.queueDepth := s.metadata.statistics.queueDepth - 1 },
      match outcome with
      | .canceled => .decreaseInflight .canceled
      | .successful => .invocation .incrementQueueDepth, [])
  | .invocation .returned => some (s, .decreaseInflight .forwarded, [])
  | .invocation .gone => some (s, .decreaseInflight .gone, [])
  | .invocation .crashed => some (s, .unwind, [])
  | .invocation pc => (DataPlane.invocation s.metadata i c.choice pc).map fun r =>
      ({ s with metadata := r.1 }, .invocation r.2, [])
  | .unwind =>
    some ({ s with metadata.statistics.queueDepth := s.metadata.statistics.queueDepth - 1 },
      .decreaseInflight .panicked, [])
  | .decreaseInflight e =>
    some ({ s with metadata.inflightRequests := s.metadata.inflightRequests - 1 },
      .decrementInflight e, [])
  | .decrementInflight e =>
    -- after the last deferred call nothing recovers from a panic of `fireRequest`
    some ({ s with
        metadata.statistics.inflight := s.metadata.statistics.inflight - 1
        panicked := s.panicked || (mode = .async && e = .panicked) },
      .returned e, [])
  | .returned _ => none

/-- `contextTerminationHandler`. The context of an asynchronous request never ends. -/
def contextTerminationHandler (s : Proxy) (request : ℕ) (cold : Bool) : ProxyMode → Option Proxy
  | .sync => if cold then s.send request .canceled else some s
  | .async => none

/-- A step of a call on the endpoints. `AddEndpoints` sends on the channel that it takes from the
queue. -/
def endpointStep (s : Proxy) (i : ℕ) (t : Thread) (c : Choice) : Option (Proxy × Thread) :=
  (t.step s.metadata i c).bind fun r =>
    match t, s.metadata.upstreamEndpoints, s.metadata.queue with
    | .addEndpoints _ .dequeue, _ :: _, k :: _ =>
      (Proxy.send { s with metadata := r.1 } k .successful).map (·, r.2)
    | _, _, _ => some ({ s with metadata := r.1 }, r.2)

namespace Task

def step (s : Proxy) (i : ℕ) (c : Decision) : Task → Option (Proxy × Task × List Task)
  | .request mode pc => (handle s i mode c pc).map fun r => (r.1, .request mode r.2.1, r.2.2)
  | .contextTermination mode k cold false =>
    (contextTerminationHandler s k cold mode).map (·, .contextTermination mode k cold true, [])
  | .contextTermination _ _ _ true => none
  | .endpoints t => (endpointStep s i t c.choice).map fun r => (r.1, .endpoints r.2, [])

/-- Requests, and calls that change the endpoints. -/
def isCall : Task → Bool
  | .request _ pc => pc = .getDeployment
  | .contextTermination _ _ _ _ => false
  | .endpoints t =>
    match t with
    | .addEndpoints _ _ | .removeAllEndpoints _ | .drainEndpoints _ _ => t.isCall
    | _ => false

end Task

/-- All interleavings of any number of requests with the calls that change the endpoints, until the
process ends. -/
def handlers : Threads Proxy Task Task Decision where
  init s := ∃ sandboxParallelism, s = { metadata := newFunctionMetadata sandboxParallelism }
  call t := if t.isCall then some t else none
  step s i t c := if s.panicked then none else t.step s i c

/-! ## What the counters count -/

namespace Task

/-- `inflightRequests` has been increased for the request and not yet decreased. -/
def isInflight : Task → Bool
  | .request _ pc =>
    match pc with
    | .getDeployment | .tryWarmStart .addInflight | .decrementInflight _ | .returned _ => false
    | _ => true
  | _ => false

/-- `statistics.Inflight` has been increased for the request and not yet decreased. -/
def isCounted : Task → Bool
  | .request _ pc =>
    match pc with
    | .getDeployment | .tryWarmStart .addInflight | .tryWarmStart .incrementInflight
    | .returned _ =>
      false
    | _ => true
  | _ => false

/-- The request waits for a cold start or is inside `DoLoadBalancing`, from the increment of
`QueueDepth` to its decrement. -/
def isQueued : Task → Bool
  | .request _ pc =>
    match pc with
    | .tryWarmStart .unlock | .tryWarmStart .waiting | .startTermination true | .receive
    | .decrementQueueDepth _ | .unwind => true
    | .invocation pc =>
      match pc with
      | .rlock _ | .select _ | .runlock _ _ | .waitForCapacity _ _ | .addInFlight _
      | .decrementQueueDepth _ | .crashed => true
      | _ => false
    | _ => false
  | _ => false

/-- The request has come in and has not returned. -/
def inProgress : Task → Bool
  | .request _ (.returned _) => false
  | .request _ _ => true
  | _ => false

end Task

variable {s s' : Proxy} {m m' : FunctionMetadata} {i : ℕ} {t t' : Task} {new : List Task}

/-- The calls on the endpoints and the metrics loop. -/
def Thread.isOther : Thread → Bool
  | .addEndpoints _ _ | .removeAllEndpoints _ | .drainEndpoints _ _
  | .sendMetricsToAutoscaler _ => true
  | _ => false

/-- Two states of the metadata with the same counters. -/
structure SameCounters (m m' : FunctionMetadata) : Prop where
  inflightRequests : m'.inflightRequests = m.inflightRequests
  inflight : m'.statistics.inflight = m.statistics.inflight
  queueDepth : m'.statistics.queueDepth = m.statistics.queueDepth

theorem Effect.sameCounters {t t' : Thread} (h : Effect m i t m' t') (ht : t.isOther = true) :
    SameCounters m m' ∧ t'.isOther = true := by
  cases h with
  | append =>
    rw [FunctionMetadata.addToEndpointList_eq]
    exact ⟨⟨rfl, rfl, rfl⟩, rfl⟩
  | _ => first | exact ⟨⟨rfl, rfl, rfl⟩, rfl⟩ | cases ht

/-- What a step changes in the counters is what it changes in the number of requests. -/
structure Counts (m : FunctionMetadata) (t : Task) (m' : FunctionMetadata) (t' : Task) : Prop where
  inflightRequests : m'.inflightRequests.toBitVec + .ofNat 32 t.isInflight.toNat =
    m.inflightRequests.toBitVec + .ofNat 32 t'.isInflight.toNat
  inflight : m'.statistics.inflight.toBitVec + .ofNat 64 t.isCounted.toNat =
    m.statistics.inflight.toBitVec + .ofNat 64 t'.isCounted.toNat
  queueDepth : m'.statistics.queueDepth.toBitVec + .ofNat 64 t.isQueued.toNat =
    m.statistics.queueDepth.toBitVec + .ofNat 64 t'.isQueued.toNat

theorem SameCounters.counts (h : SameCounters m m') (hinflight : t'.isInflight = t.isInflight)
    (hcounted : t'.isCounted = t.isCounted) (hqueued : t'.isQueued = t.isQueued) :
    Counts m t m' t' := by
  refine ⟨?_, ?_, ?_⟩
  · rw [h.inflightRequests, hinflight]
  · rw [h.inflight, hcounted]
  · rw [h.queueDepth, hqueued]

theorem counts_tryWarmStart (mode : ProxyMode) {pc pc' : WarmStart}
    (h : tryWarmStart m i pc = some (m', pc')) :
    Counts m (.request mode (.tryWarmStart pc)) m' (.request mode (.tryWarmStart pc')) := by
  cases tryWarmStart_effect h with
  | addInflight => exact ⟨by simp [Task.isInflight], rfl, rfl⟩
  | incrementInflight => exact ⟨rfl, by simp [Task.isCounted], rfl⟩
  | warmIncrementQueueDepth => exact ⟨rfl, rfl, by simp [Task.isQueued]⟩
  | _ => exact ⟨rfl, rfl, rfl⟩

theorem counts_invocation (mode : ProxyMode) {c : Choice} {pc pc' : Invocation}
    (h : invocation m i c pc = some (m', pc')) :
    Counts m (.request mode (.invocation pc)) m' (.request mode (.invocation pc')) := by
  cases invocation_effect h with
  | incrementQueueDepth | gone | forward =>
    exact ⟨rfl, rfl, by simp [Task.isQueued]⟩
  | _ => exact ⟨rfl, rfl, rfl⟩

/-- A task that is not a request is not counted. -/
structure Task.Uncounted (t : Task) : Prop where
  inflight : t.isInflight = false
  counted : t.isCounted = false
  queued : t.isQueued = false

/-- The tasks as they are: the calls on the endpoints do not count. -/
def Task.isProper : Task → Bool
  | .endpoints t => t.isOther
  | _ => true

theorem counts_handle (mode : ProxyMode) {c : Decision} {pc pc' : Handler}
    (h : handle s i mode c pc = some (s', pc', new)) :
    Counts s.metadata (.request mode pc) s'.metadata (.request mode pc') ∧
      ∀ u ∈ new, u.Uncounted ∧ u.isProper = true := by
  cases pc with
  | getDeployment =>
    simp only [handle] at h
    split at h
    all_goals
      cases h
      exact ⟨⟨rfl, rfl, rfl⟩, List.forall_mem_nil _⟩
  | tryWarmStart pc =>
    by_cases hwarm : pc = .warm
    · subst hwarm
      cases h
      exact ⟨⟨rfl, rfl, rfl⟩, List.forall_mem_nil _⟩
    by_cases hwaiting : pc = .waiting
    · subst hwaiting
      cases h
      exact ⟨⟨rfl, rfl, rfl⟩, List.forall_mem_nil _⟩
    rw [handle] at h
    · obtain ⟨⟨m, pc'⟩, hstep, heq⟩ := Option.map_eq_some_iff.1 h
      cases heq
      refine ⟨counts_tryWarmStart mode hstep, fun u hu => ?_⟩
      obtain ⟨v, hv, rfl⟩ := List.mem_map.1 hu
      refine ⟨⟨rfl, rfl, rfl⟩, ?_⟩
      rw [eq_of_mem_starts hv]
      rfl
    · exact hwarm
    · exact hwaiting
  | startTermination cold =>
    cases h
    refine ⟨by cases cold <;> exact ⟨rfl, rfl, rfl⟩, fun u hu => ?_⟩
    rw [List.mem_singleton.1 hu]
    exact ⟨⟨rfl, rfl, rfl⟩, rfl⟩
  | receive =>
    obtain ⟨outcome, -, heq⟩ := Option.map_eq_some_iff.1 h
    cases heq
    exact ⟨⟨rfl, rfl, rfl⟩, List.forall_mem_nil _⟩
  | decrementQueueDepth outcome =>
    cases h
    refine ⟨?_, List.forall_mem_nil _⟩
    cases outcome <;> exact ⟨rfl, rfl, by simp [Task.isQueued]⟩
  | invocation pc =>
    cases pc with
    | returned | gone | crashed =>
      cases h
      exact ⟨⟨rfl, rfl, rfl⟩, List.forall_mem_nil _⟩
    | _ =>
      simp only [handle, Option.map_eq_some_iff, Prod.exists, Prod.mk.injEq] at h
      obtain ⟨m, pc', hstep, rfl, rfl, rfl⟩ := h
      exact ⟨counts_invocation mode hstep, List.forall_mem_nil _⟩
  | unwind =>
    cases h
    exact ⟨⟨rfl, rfl, by simp [Task.isQueued]⟩, List.forall_mem_nil _⟩
  | decreaseInflight e =>
    cases h
    exact ⟨⟨by simp [Task.isInflight], rfl, rfl⟩, List.forall_mem_nil _⟩
  | decrementInflight e =>
    cases h
    exact ⟨⟨rfl, by simp [Task.isCounted], rfl⟩, List.forall_mem_nil _⟩
  | returned e => cases h

theorem Proxy.metadata_of_send {k : ℕ} {outcome : ColdStartOutcome}
    (h : s.send k outcome = some s') : s'.metadata = s.metadata := by
  unfold Proxy.send at h
  split at h
  · cases h
    rfl
  · cases h

theorem counts_endpoints {t t' : Thread} {c : Choice} (h : endpointStep s i t c = some (s', t'))
    (ht : t.isOther = true) :
    Counts s.metadata (.endpoints t) s'.metadata (.endpoints t') ∧ t'.isOther = true := by
  obtain ⟨⟨m, u⟩, hstep, h⟩ := Option.bind_eq_some_iff.1 h
  have hsame := (Thread.step_effect hstep).sameCounters ht
  have heq : s'.metadata = m ∧ t' = u := by
    split at h
    · obtain ⟨s₁, hsend, heq⟩ := Option.map_eq_some_iff.1 h
      cases heq
      exact ⟨Proxy.metadata_of_send hsend, rfl⟩
    · cases h
      exact ⟨rfl, rfl⟩
  rw [heq.1, heq.2]
  exact ⟨hsame.1.counts rfl rfl rfl, hsame.2⟩

/-- **A step counts.** -/
theorem counts_step {c : Decision} (h : t.step s i c = some (s', t', new))
    (ht : t.isProper = true) : Counts s.metadata t s'.metadata t' ∧ t'.isProper = true ∧
      ∀ u ∈ new, u.Uncounted ∧ u.isProper = true := by
  cases t with
  | request mode pc =>
    obtain ⟨⟨s₁, pc', new'⟩, hstep, heq⟩ := Option.map_eq_some_iff.1 h
    cases heq
    obtain ⟨hcounts, hnew⟩ := counts_handle mode hstep
    exact ⟨hcounts, rfl, hnew⟩
  | contextTermination mode k cold returned =>
    cases returned with
    | false =>
      obtain ⟨s₁, hstep, heq⟩ := Option.map_eq_some_iff.1 h
      cases heq
      have hsame : s'.metadata = s.metadata := by
        cases mode with
        | sync =>
          cases cold with
          | false =>
            cases hstep
            rfl
          | true => exact Proxy.metadata_of_send hstep
        | async => cases hstep
      rw [hsame]
      exact ⟨⟨rfl, rfl, rfl⟩, rfl, List.forall_mem_nil _⟩
    | true => cases h
  | endpoints t =>
    obtain ⟨⟨s₁, u⟩, hstep, heq⟩ := Option.map_eq_some_iff.1 h
    cases heq
    obtain ⟨hcounts, hother⟩ := counts_endpoints hstep ht
    exact ⟨hcounts, hother, List.forall_mem_nil _⟩

/-! ## Whole runs -/

/-- The counters are the numbers of requests, as far as words can say. -/
structure Conserved (s : Pool Proxy Task) : Prop where
  proper : ∀ t ∈ s.threads, t.isProper = true
  inflightRequests :
    s.shared.metadata.inflightRequests.toBitVec = .ofNat 32 (s.threads.countP Task.isInflight)
  inflight :
    s.shared.metadata.statistics.inflight.toBitVec = .ofNat 64 (s.threads.countP Task.isCounted)
  queueDepth :
    s.shared.metadata.statistics.queueDepth.toBitVec = .ofNat 64 (s.threads.countP Task.isQueued)

theorem uncounted_of_isCall (h : t.isCall = true) : t.Uncounted ∧ t.isProper = true := by
  cases t with
  | request mode pc =>
    obtain rfl := of_decide_eq_true h
    exact ⟨⟨rfl, rfl, rfl⟩, rfl⟩
  | contextTermination mode k cold returned => cases h
  | endpoints t =>
    refine ⟨⟨rfl, rfl, rfl⟩, ?_⟩
    cases t <;> first | rfl | cases h

/-- A counter that changes with the task that moves keeps counting. -/
theorem counter_advance {w : ℕ} {p : Task → Bool} {ts : List Task} {x x' : BitVec w}
    (ht : ts[i]? = some t) (hnew : ∀ u ∈ new, p u = false) (hold : x = .ofNat w (ts.countP p))
    (hmoved : x' + .ofNat w (p t).toNat = x + .ofNat w (p t').toNat) :
    x' = .ofNat w ((Threads.advance ts i t' new).countP p) := by
  have hzero : new.countP p = 0 := by
    rw [List.countP_eq_zero]
    intro u hu
    simp [hnew u hu]
  have hcount : (Threads.advance ts i t' new).countP p + (p t).toNat =
      ts.countP p + (p t').toNat := by
    have h := Threads.countP_advance p ht t' new
    rw [hzero] at h
    cases hp : p t <;> cases hp' : p t' <;> simp_all
  have hcast := congrArg (BitVec.ofNat w) hcount
  rw [BitVec.ofNat_add, BitVec.ofNat_add, ← hold, ← hmoved] at hcast
  exact (BitVec.add_left_inj _).1 hcast.symm

theorem conserved_of_run {tr : List (Machine.Step _ _)} {s : Pool Proxy Task}
    (h : handlers.machine.Run tr s) : Conserved s := by
  refine h.invariant_state ?_ ?_
  · rintro ⟨s, ts⟩ ⟨⟨p, rfl⟩, rfl⟩
    exact ⟨List.forall_mem_nil _, rfl, rfl, rfl⟩
  · intro s e s' hs hn
    rcases Threads.next_cases hn with ⟨a, t, -, ha, rfl⟩ | ⟨i, c, t, s₁, t', new, -, ht, hstep, rfl⟩
    · simp only [handlers, Option.ite_none_right_eq_some, Option.some.injEq] at ha
      obtain ⟨hcall, rfl⟩ := ha
      obtain ⟨hun, hproper⟩ := uncounted_of_isCall hcall
      refine ⟨Threads.forall_mem_concat hs.proper hproper, ?_, ?_, ?_⟩
      · rw [List.countP_append, List.countP_singleton, hun.inflight]
        exact hs.inflightRequests
      · rw [List.countP_append, List.countP_singleton, hun.counted]
        exact hs.inflight
      · rw [List.countP_append, List.countP_singleton, hun.queued]
        exact hs.queueDepth
    · simp only [handlers, Option.ite_none_left_eq_some] at hstep
      obtain ⟨hcounts, hproper, hnew⟩ :=
        counts_step hstep.2 (hs.proper t (List.mem_of_getElem? ht))
      refine ⟨fun u hu => ?_, ?_, ?_, ?_⟩
      · rcases Threads.mem_of_mem_advance hu with rfl | hsame | hu
        · exact hproper
        · exact hs.proper u hsame
        · exact (hnew u hu).2
      · exact counter_advance ht (fun u hu => (hnew u hu).1.inflight) hs.inflightRequests
          hcounts.inflightRequests
      · exact counter_advance ht (fun u hu => (hnew u hu).1.counted) hs.inflight hcounts.inflight
      · exact counter_advance ht (fun u hu => (hnew u hu).1.queued) hs.queueDepth hcounts.queueDepth

theorem toInt_ofNat {w n : ℕ} (hw : 0 < w) (h : n < 2 ^ (w - 1)) :
    (BitVec.ofNat w n).toInt = n := by
  have htwo : 2 ^ w = 2 * 2 ^ (w - 1) := by
    rw [← pow_succ', Nat.sub_add_cancel hw]
  have hlt : n * 2 < 2 ^ w := by omega
  rw [BitVec.toInt_ofNat']
  refine Int.bmod_eq_of_le_mul_two ?_ (by exact_mod_cast hlt)
  exact le_trans (neg_nonpos.2 (Int.natCast_nonneg _)) (by positivity)

/-- The counters are the numbers of requests, and so are not negative. -/
structure CountersMatch (s : Pool Proxy Task) : Prop where
  inflightRequests : s.shared.metadata.inflightRequests.toInt = s.threads.countP Task.isInflight
  inflight : s.shared.metadata.statistics.inflight.toInt = s.threads.countP Task.isCounted
  queueDepth : s.shared.metadata.statistics.queueDepth.toInt = s.threads.countP Task.isQueued

theorem inProgress_of_isInflight (h : t.isInflight = true) : t.inProgress = true := by
  cases t with
  | request mode pc =>
    cases pc with
    | returned e => cases h
    | _ => rfl
  | _ => cases h

theorem inProgress_of_isCounted (h : t.isCounted = true) : t.inProgress = true := by
  cases t with
  | request mode pc =>
    cases pc with
    | returned e => cases h
    | _ => rfl
  | _ => cases h

theorem inProgress_of_isQueued (h : t.isQueued = true) : t.inProgress = true := by
  cases t with
  | request mode pc =>
    cases pc with
    | returned e => cases h
    | _ => rfl
  | _ => cases h

/-- **The counters are conserved**: as long as there are fewer than 2³¹ requests, each counter is
the number of requests for which it was increased and not yet decreased, so it is not negative, and
it is 0 when no request is in progress. -/
theorem counters_conserved {tr : List (Machine.Step _ _)} {s : Pool Proxy Task}
    (h : handlers.machine.Run tr s) (hfew : s.threads.countP Task.inProgress < 2 ^ 31) :
    CountersMatch s ∧ (s.threads.countP Task.inProgress = 0 →
      s.shared.metadata.inflightRequests.toInt = 0 ∧
      s.shared.metadata.statistics.inflight.toInt = 0 ∧
      s.shared.metadata.statistics.queueDepth.toInt = 0) := by
  have hconserved := conserved_of_run h
  have hinflight : s.threads.countP Task.isInflight ≤ s.threads.countP Task.inProgress :=
    List.countP_mono_left fun t _ ht => inProgress_of_isInflight ht
  have hcounted : s.threads.countP Task.isCounted ≤ s.threads.countP Task.inProgress :=
    List.countP_mono_left fun t _ ht => inProgress_of_isCounted ht
  have hqueued : s.threads.countP Task.isQueued ≤ s.threads.countP Task.inProgress :=
    List.countP_mono_left fun t _ ht => inProgress_of_isQueued ht
  have hmatch : CountersMatch s := by
    refine ⟨?_, ?_, ?_⟩
    · rw [Int32.toInt, hconserved.inflightRequests]
      exact toInt_ofNat (by decide) (by omega)
    · rw [Int64.toInt, hconserved.inflight]
      exact toInt_ofNat (by decide) (by omega)
    · rw [Int64.toInt, hconserved.queueDepth]
      exact toInt_ofNat (by decide) (by omega)
  refine ⟨hmatch, fun hnone => ?_⟩
  rw [hmatch.inflightRequests, hmatch.inflight, hmatch.queueDepth]
  omega

/-- A function that has just been deployed, and nobody has called. -/
def unused : Pool Proxy Task := ⟨{ metadata := newFunctionMetadata 1 }, []⟩

theorem unused_init : handlers.machine.init unused := ⟨⟨1, rfl⟩, rfl⟩

/-- Task `i` makes `n` steps. -/
def proceeds (i n : ℕ) : List (Threads.Event Task Decision) := List.replicate n (.run i (.call .go))

/-- Two requests wait for a cold start, and the client of the second one leaves. -/
theorem counters_conserved_of_canceled : ∃ tr s, handlers.machine.Run tr s ∧
    .request .sync .receive ∈ s.threads ∧ .request .sync (.returned .canceled) ∈ s.threads ∧
    CountersMatch s := by
  obtain ⟨tr, s, hrun, hwaits, hcanceled, hfew⟩ : ∃ tr s, handlers.machine.Run tr s ∧
      .request .sync .receive ∈ s.threads ∧ .request .sync (.returned .canceled) ∈ s.threads ∧
      s.threads.countP Task.inProgress < 2 ^ 31 :=
    Machine.exists_run_of_play (.start (.request .sync .getDeployment) :: proceeds 0 13 ++
      .start (.request .sync .getDeployment) :: proceeds 3 11 ++ proceeds 4 1 ++ proceeds 3 4)
      unused_init (by decide +kernel)
  exact ⟨tr, s, hrun, hwaits, hcanceled, (counters_conserved hrun hfew).1⟩

end Dirigent.DataPlane
