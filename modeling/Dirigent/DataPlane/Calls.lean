import Dirigent.Threads
import Dirigent.DataPlane.FunctionMetadata

/-!
# The calls on one function

Every call on a `FunctionMetadata` is a thread; its local state says where it is and what it
remembers. A step is one lock operation, one atomic operation, one channel operation, or the work
on the endpoint list or the queue between two of them, which the lock protects.

A request is two threads: its `TryWarmStart`, and, once it may go on, its load balancing up to
`giveBackCCCapacity`. Nothing says that the second follows the first, so the runs here include
those of the two proxy handlers.

Go's `Lock` announces the writer before it waits for the readers. The two halves are one step
here: a run in which they are apart passes through the same lock sections in the same order.
-/

namespace Dirigent.DataPlane

/-- What a thread leaves open: the endpoint that the load-balancing policy picks, whether
`waitForCapacityOrDie` times out, and which goroutine of `waitForDrainingToComplete` is next. -/
inductive Choice
  | go
  | endpoint (e : ℕ)
  | timeout
  | barrier (k : ℕ)
  deriving DecidableEq, Repr

/-! ## `TryWarmStart` and the metrics loop -/

inductive WarmStart
  | addInflight | incrementInflight
  -- triggerAutoscaling
  | loadTriggered | swapTriggered | startLoop
  | loadActive | lock | pushBack | incrementQueueDepth | unlock
  /-- Returned without a channel. -/
  | warm
  /-- Returned with the channel on which the cold start is reported. -/
  | waiting
  deriving DecidableEq, Repr

def tryWarmStart (m : FunctionMetadata) (i : ℕ) : WarmStart → Option (FunctionMetadata × WarmStart)
  | .addInflight => some ({ m with inflightRequests := m.inflightRequests + 1 }, .incrementInflight)
  | .incrementInflight =>
    some ({ m with statistics.inflight := m.statistics.inflight + 1 }, .loadTriggered)
  | .loadTriggered => some (m, if m.autoscalingTriggered then .loadActive else .swapTriggered)
  | .swapTriggered =>
    if m.autoscalingTriggered then some (m, .loadTriggered)
    else some ({ m with autoscalingTriggered := true }, .startLoop)
  | .startLoop => some (m, .loadActive)
  | .loadActive => some (m, if m.activeEndpointCount = 0 then .lock else .warm)
  | .lock => (m.lock i).map (·, .pushBack)
  | .pushBack => some ({ m with queue := m.queue ++ [i] }, .incrementQueueDepth)
  | .incrementQueueDepth =>
    some ({ m with statistics.queueDepth := m.statistics.queueDepth + 1 }, .unlock)
  | .unlock => some (m.unlock, .waiting)
  | .warm => none
  | .waiting => none

/-- `sendMetricsToAutoscaler`. The report to the control plane has its own goroutine. -/
inductive MetricsLoop
  | lock | load | clear
  | unlock (toBreak : Bool)
  | tick | exited
  deriving DecidableEq, Repr

def sendMetricsToAutoscaler (m : FunctionMetadata) (i : ℕ) :
    MetricsLoop → Option (FunctionMetadata × MetricsLoop)
  | .lock => (m.lock i).map (·, .load)
  | .load => some (m, if m.inflightRequests = 0 then .clear else .unlock false)
  | .clear => some ({ m with autoscalingTriggered := false }, .unlock true)
  | .unlock toBreak => some (m.unlock, if toBreak then .exited else .tick)
  | .tick => some (m, .lock)
  | .exited => none

/-! ## Adding and removing endpoints -/

inductive Add
  | lock | append | storeCount | dequeue | unlock | returned
  deriving DecidableEq, Repr

def addEndpoints (endpoints : List EndpointInfo) (m : FunctionMetadata) (i : ℕ) :
    Add → Option (FunctionMetadata × Add)
  | .lock => (m.lock i).map (·, .append)
  | .append => some (m.addToEndpointList endpoints, .storeCount)
  | .storeCount => some ({ m with activeEndpointCount := m.upstreamEndpoints.length }, .dequeue)
  | .dequeue =>
    match m.upstreamEndpoints, m.queue with
    | _ :: _, c :: queue => some ({ m with queue := queue, started := m.started ++ [c] }, .dequeue)
    | _, _ => some (m, .unlock)
  | .unlock => some (m.unlock, .returned)
  | .returned => none

inductive RemoveAll
  | lock | clear | storeCount | unlock | returned
  deriving DecidableEq, Repr

def removeAllEndpoints (m : FunctionMetadata) (i : ℕ) :
    RemoveAll → Option (FunctionMetadata × RemoveAll)
  | .lock => (m.lock i).map (·, .clear)
  | .clear => some ({ m with upstreamEndpoints := [] }, .storeCount)
  | .storeCount => some ({ m with activeEndpointCount := 0 }, .unlock)
  | .unlock => some (m.unlock, .returned)
  | .returned => none

/-- What `DrainEndpoints` remembers: the endpoints still to look at, those it has found in the
patch and dealt with, and the channels it will wait for. -/
structure Draining where
  todo : List ℕ := []
  covered : List ℕ := []
  barriers : List ℕ := []
  deriving DecidableEq, Repr

inductive Drain
  | lock
  -- markEndpointsAsDraining
  | mark (d : Draining)
  | makeCallback (e : ℕ) (d : Draining)
  | loadInFlight (e : ℕ) (d : Draining)
  | signal (e : ℕ) (d : Draining)
  -- removeEndpoints
  | remove (d : Draining)
  | storeCount (d : Draining)
  | unlock (d : Draining)
  -- waitForDrainingToComplete
  | wait (d : Draining)
  | returned (d : Draining)
  deriving DecidableEq, Repr

/-- Send on the callback of `e`: blocks on a nil channel and on a full buffer. -/
def FunctionMetadata.sendCallback (m : FunctionMetadata) (e : ℕ) : Option FunctionMetadata :=
  if (m.heap e).drainingCallback = some 0 then
    some (m.modify e fun ep => { ep with drainingCallback := some 1 }) else none

/-- Receive from the callback of `e`: blocks while the buffer is empty. -/
def FunctionMetadata.receiveCallback (m : FunctionMetadata) (e : ℕ) : Option FunctionMetadata :=
  if (m.heap e).drainingCallback = some 1 then
    some (m.modify e fun ep => { ep with drainingCallback := some 0 }) else none

def drainEndpoints (endpoints : List EndpointInfo) (m : FunctionMetadata) (i : ℕ) (c : Choice) :
    Drain → Option (FunctionMetadata × Drain)
  | .lock => (m.lock i).map (·, .mark { todo := m.upstreamEndpoints })
  | .mark d =>
    match d.todo with
    | [] => some (m, .remove d)
    | e :: todo =>
      if isDrained endpoints (m.heap e) then
        -- the swap of Drained; the old value decides
        some (m.modify e fun ep => { ep with drained := true },
          if (m.heap e).drained then .mark { d with todo := todo, covered := e :: d.covered }
          else .makeCallback e { d with todo := todo })
      else some (m, .mark { d with todo := todo })
  | .makeCallback e d =>
    some (m.modify e fun ep => { ep with drainingCallback := some 0 },
      .loadInFlight e { d with barriers := d.barriers ++ [e] })
  | .loadInFlight e d =>
    some (m, if (m.heap e).inFlight = 0 then .signal e { d with covered := e :: d.covered }
      else .mark { d with covered := e :: d.covered })
  | .signal e d => (m.sendCallback e).map (·, .mark d)
  | .remove d =>
    some ({ m with
      upstreamEndpoints := FunctionMetadata.removeByURL m.heap endpoints m.upstreamEndpoints },
      .storeCount d)
  | .storeCount d => some ({ m with activeEndpointCount := m.upstreamEndpoints.length }, .unlock d)
  | .unlock d => some (m.unlock, .wait d)
  | .wait d =>
    match d.barriers with
    | [] => some (m, .returned d)
    | _ =>
      match c with
      | .barrier k => d.barriers[k]?.bind fun e =>
          (m.receiveCallback e).map (·, .wait { d with barriers := d.barriers.eraseIdx k })
      | _ => none
  | .returned _ => none

/-! ## A request on its endpoint -/

/-- `DoLoadBalancing`, the forwarded request, and `giveBackCCCapacity`. -/
inductive Invocation
  | incrementQueueDepth
  | rlock (retries : ℕ)
  | select (retries : ℕ)
  | runlock (retries : ℕ) (endpoint : Option ℕ)
  | waitForCapacity (retries : ℕ) (e : ℕ)
  | addInFlight (e : ℕ)
  | decrementQueueDepth (endpoint : Option ℕ)
  | proxying (e : ℕ)
  -- giveBackCCCapacity
  | giveBack (e : ℕ)
  | loadDrained (e : ℕ) (endpointInflight : ℤ)
  | loadCallback (e : ℕ)
  | sendCallback (e : ℕ)
  | returnToken (e : ℕ)
  | returned
  /-- No endpoint with capacity was found. -/
  | gone
  /-- The capacity of a nil endpoint was asked for. -/
  | crashed
  /-- Sends on the nil callback of `e`, for ever. -/
  | blocked (e : ℕ)
  deriving DecidableEq, Repr

def loadBalancingRetries : ℕ := 60

/-- `runLoadBalancingAlgorithm` under the read lock: any endpoint of the list may be the policy's
pick, and there is none in an empty list. -/
def FunctionMetadata.pick (m : FunctionMetadata) : Choice → Option (Option ℕ)
  | .endpoint e => if e ∈ m.upstreamEndpoints then some (some e) else none
  | _ => if m.upstreamEndpoints = [] then some none else none

/-- `waitForCapacityOrDie`: a token, or a timeout. -/
def FunctionMetadata.takeToken (m : FunctionMetadata) (e : ℕ) : Option FunctionMetadata :=
  if 0 < (m.heap e).capacity then
    some (m.modify e fun ep => { ep with capacity := ep.capacity - 1 }) else none

def FunctionMetadata.returnToken (m : FunctionMetadata) (e : ℕ) : Option FunctionMetadata :=
  if (m.heap e).capacity < m.sandboxParallelism then
    some (m.modify e fun ep => { ep with capacity := ep.capacity + 1 }) else none

def invocation (m : FunctionMetadata) (i : ℕ) (c : Choice) :
    Invocation → Option (FunctionMetadata × Invocation)
  | .incrementQueueDepth =>
    some ({ m with statistics.queueDepth := m.statistics.queueDepth + 1 },
      .rlock loadBalancingRetries)
  | .rlock 0 => some (m, .decrementQueueDepth none)
  | .rlock (k + 1) => (m.rlock i).map (·, .select k)
  | .select k => (m.pick c).map fun endpoint => (m, .runlock k endpoint)
  | .runlock _ none => some (m.runlock i, .crashed)
  | .runlock k (some e) => some (m.runlock i, .waitForCapacity k e)
  | .waitForCapacity k e =>
    if c = .timeout then some (m, .rlock k) else (m.takeToken e).map (·, .addInFlight e)
  | .addInFlight e =>
    some (m.modify e fun ep => { ep with inFlight := ep.inFlight + 1 },
      .decrementQueueDepth (some e))
  | .decrementQueueDepth none =>
    some ({ m with statistics.queueDepth := m.statistics.queueDepth - 1 }, .gone)
  | .decrementQueueDepth (some e) =>
    some ({ m with statistics.queueDepth := m.statistics.queueDepth - 1 }, .proxying e)
  | .proxying e => some (m, .giveBack e)
  | .giveBack e =>
    some (m.modify e fun ep => { ep with inFlight := ep.inFlight - 1 },
      .loadDrained e ((m.heap e).inFlight - 1))
  | .loadDrained e endpointInflight =>
    some (m, if (m.heap e).drained ∧ endpointInflight = 0 then .loadCallback e else .returnToken e)
  | .loadCallback e =>
    some (m, if (m.heap e).drainingCallback = none then .blocked e else .sendCallback e)
  | .sendCallback e => (m.sendCallback e).map (·, .returnToken e)
  | .returnToken e => (m.returnToken e).map (·, .returned)
  | .returned => none
  | .gone => none
  | .crashed => none
  | .blocked _ => none

/-! ## All calls together -/

inductive Thread
  | tryWarmStart (pc : WarmStart)
  | decreaseInflight (returned : Bool)
  | sendMetricsToAutoscaler (pc : MetricsLoop)
  | addEndpoints (endpoints : List EndpointInfo) (pc : Add)
  | removeAllEndpoints (pc : RemoveAll)
  | drainEndpoints (endpoints : List EndpointInfo) (pc : Drain)
  | invocation (pc : Invocation)
  deriving DecidableEq, Repr

namespace Thread

/-- The calls as they come in. The metrics loop is started by `TryWarmStart` only. -/
def isCall : Thread → Bool
  | .tryWarmStart pc => pc = .addInflight
  | .decreaseInflight returned => !returned
  | .sendMetricsToAutoscaler _ => false
  | .addEndpoints _ pc => pc = .lock
  | .removeAllEndpoints pc => pc = .lock
  | .drainEndpoints _ pc => pc = .lock
  | .invocation pc => pc = .incrementQueueDepth

/-- The goroutines that a step starts. -/
def starts : Thread → List Thread
  | .tryWarmStart .startLoop => [.sendMetricsToAutoscaler .lock]
  | _ => []

def step (m : FunctionMetadata) (i : ℕ) : Thread → Choice → Option (FunctionMetadata × Thread)
  | .tryWarmStart pc, _ => (DataPlane.tryWarmStart m i pc).map (Prod.map id .tryWarmStart)
  | .decreaseInflight false, _ =>
    some ({ m with inflightRequests := m.inflightRequests - 1 }, .decreaseInflight true)
  | .decreaseInflight true, _ => none
  | .sendMetricsToAutoscaler pc, _ =>
    (DataPlane.sendMetricsToAutoscaler m i pc).map (Prod.map id .sendMetricsToAutoscaler)
  | .addEndpoints es pc, _ =>
    (DataPlane.addEndpoints es m i pc).map (Prod.map id (.addEndpoints es))
  | .removeAllEndpoints pc, _ =>
    (DataPlane.removeAllEndpoints m i pc).map (Prod.map id .removeAllEndpoints)
  | .drainEndpoints es pc, c =>
    (DataPlane.drainEndpoints es m i c pc).map (Prod.map id (.drainEndpoints es))
  | .invocation pc, c => (DataPlane.invocation m i c pc).map (Prod.map id .invocation)

end Thread

/-- All interleavings of any number of calls on one function. -/
def calls : Threads FunctionMetadata Thread Thread Choice where
  init m := ∃ sandboxParallelism, m = newFunctionMetadata sandboxParallelism
  call t := if t.isCall then some t else none
  step m i t c := (t.step m i c).map fun r => (r.1, r.2, t.starts)

/-- A function that has just been deployed. -/
def fresh : Pool FunctionMetadata Thread := ⟨newFunctionMetadata 1, []⟩

theorem fresh_init : calls.machine.init fresh := ⟨⟨1, rfl⟩, rfl⟩

/-- A sandbox of the function. -/
def sandboxA : EndpointInfo := ⟨"a", "10.0.0.1:8080"⟩

/-- Thread `i` makes `n` steps that leave nothing open. -/
def runs (i n : ℕ) : List (Threads.Event Thread Choice) := List.replicate n (.run i .go)

end Dirigent.DataPlane
