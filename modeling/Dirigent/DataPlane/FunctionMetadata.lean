import Dirigent.RWMutex

/-!
# The data plane's view of one function

`FunctionMetadata` with its upstream endpoints. The endpoint objects live in a heap: a request
keeps its pointer to an endpoint after the endpoint has left `upstreamEndpoints`. A channel is
the number of values in its buffer, and `none` where the source has a nil channel.

The counters of requests are words, which wrap: nothing pairs the calls that change them. Two
numbers are kept whole, since they cannot wrap. `InFlight` counts requests that each hold one of
the `sandboxParallelism` tokens of the endpoint, and the code makes one; `activeEndpointCount` is
the length of a slice of endpoint objects, of which there would have to be 2³¹.

Left out: time stamps and durations, log lines, the dial to the control plane, and the
load-balancing counters, which no function here reads.
-/

namespace Dirigent.DataPlane

/-- `proto.EndpointInfo`: what the control plane says about a sandbox. -/
structure EndpointInfo where
  id : String
  url : String
  deriving DecidableEq, Repr

structure UpstreamEndpoint where
  id : String
  url : String
  /-- Tokens in the `Capacity` channel. -/
  capacity : ℕ
  drained : Bool := false
  drainingCallback : Option ℕ := none
  inFlight : ℤ := 0
  deriving DecidableEq, Repr

/-- `FunctionStatistics`, as far as the functions here write it. -/
structure FunctionStatistics where
  inflight : Int64 := 0
  queueDepth : Int64 := 0
  deriving DecidableEq, Repr

structure FunctionMetadata where
  mutex : RWMutex
  sandboxParallelism : ℕ
  /-- The endpoint objects; those from `allocated` on do not exist yet. -/
  heap : ℕ → UpstreamEndpoint
  allocated : ℕ
  upstreamEndpoints : List ℕ
  activeEndpointCount : ℤ
  /-- The cold-start queue, with the number of the call that waits. -/
  queue : List ℕ
  /-- The calls whose cold start was reported successful. -/
  started : List ℕ
  inflightRequests : Int32
  autoscalingTriggered : Bool
  statistics : FunctionStatistics

/-- `NewFunctionMetadata`, with the parallelism left open. -/
def newFunctionMetadata (sandboxParallelism : ℕ) : FunctionMetadata where
  mutex := {}
  sandboxParallelism := sandboxParallelism
  heap := fun _ => { id := "", url := "", capacity := 0 }
  allocated := 0
  upstreamEndpoints := []
  activeEndpointCount := 0
  queue := []
  started := []
  inflightRequests := 0
  autoscalingTriggered := false
  statistics := {}

namespace FunctionMetadata

/-- `m.Lock()` by thread `i`. -/
def lock (m : FunctionMetadata) (i : ℕ) : Option FunctionMetadata :=
  (m.mutex.lock i).map fun mutex => { m with mutex }

def unlock (m : FunctionMetadata) : FunctionMetadata := { m with mutex := m.mutex.unlock }

/-- `m.RLock()` by thread `i`. -/
def rlock (m : FunctionMetadata) (i : ℕ) : Option FunctionMetadata :=
  (m.mutex.rlock i).map fun mutex => { m with mutex }

def runlock (m : FunctionMetadata) (i : ℕ) : FunctionMetadata :=
  { m with mutex := m.mutex.runlock i }

/-- Change one endpoint object. -/
def modify (m : FunctionMetadata) (e : ℕ) (f : UpstreamEndpoint → UpstreamEndpoint) :
    FunctionMetadata :=
  { m with heap := Function.update m.heap e (f (m.heap e)) }

/-- A new endpoint: a full throttler channel, not in drain mode. -/
def newEndpoint (m : FunctionMetadata) (info : EndpointInfo) : UpstreamEndpoint :=
  { id := info.id, url := info.url, capacity := m.sandboxParallelism }

def addToEndpointList (m : FunctionMetadata) : List EndpointInfo → FunctionMetadata
  | [] => m
  | info :: data =>
    { m with
      heap := Function.update m.heap m.allocated (m.newEndpoint info)
      allocated := m.allocated + 1
      upstreamEndpoints := m.upstreamEndpoints ++ [m.allocated] }.addToEndpointList data

/-- The endpoints left by `removeEndpoints`: for each entry of the patch, the first endpoint with
its URL goes. -/
def removeByURL (heap : ℕ → UpstreamEndpoint) (endpoints : List EndpointInfo) (es : List ℕ) :
    List ℕ :=
  endpoints.foldl (fun es info => es.eraseP fun e => (heap e).url = info.url) es

/-! ## What the list operations do -/

/-- The heap after the endpoints of `data` were created. -/
def heapWith (m : FunctionMetadata) (data : List EndpointInfo) (e : ℕ) : UpstreamEndpoint :=
  if e < m.allocated then m.heap e
  else (data[e - m.allocated]?.map m.newEndpoint).getD (m.heap e)

/-- `addToEndpointList` appends one new endpoint for each entry and touches nothing else. -/
theorem addToEndpointList_eq (m : FunctionMetadata) (data : List EndpointInfo) :
    m.addToEndpointList data =
      { m with
        heap := m.heapWith data
        allocated := m.allocated + data.length
        upstreamEndpoints := m.upstreamEndpoints ++ List.range' m.allocated data.length } := by
  induction data generalizing m with
  | nil =>
    have hheap : m.heapWith [] = m.heap := by
      funext e
      simp [heapWith]
    simp [addToEndpointList, hheap]
  | cons info data ih =>
    rw [addToEndpointList, ih]
    simp only [List.length_cons, FunctionMetadata.mk.injEq, true_and, and_true]
    refine ⟨?_, by omega, by simp [List.range'_succ]⟩
    funext e
    simp only [heapWith]
    rcases lt_trichotomy e m.allocated with he | rfl | he
    · simp [he, he.ne, Nat.lt_succ_of_lt he]
    · simp [newEndpoint]
    · have hsub : e - m.allocated = (e - (m.allocated + 1)) + 1 := by omega
      simp only [not_lt.2 he.le, not_lt.2 (Nat.succ_le_of_lt he), if_false, hsub,
        List.getElem?_cons_succ, Function.update_of_ne he.ne']
      rfl

theorem removeByURL_sublist (heap : ℕ → UpstreamEndpoint) (endpoints : List EndpointInfo)
    (es : List ℕ) : (removeByURL heap endpoints es).Sublist es := by
  induction endpoints generalizing es with
  | nil => exact List.Sublist.refl _
  | cons info endpoints ih => exact (ih _).trans List.eraseP_sublist

end FunctionMetadata

/-- The key set of `infos` in `markEndpointsAsDraining`. -/
def isDrained (endpoints : List EndpointInfo) (ep : UpstreamEndpoint) : Bool :=
  endpoints.any fun info => info.id = ep.id

end Dirigent.DataPlane
