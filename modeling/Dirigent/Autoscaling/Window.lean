import Dirigent.Autoscaling.LoadMetric
import Dirigent.ControlPlane.LockDiscipline

/-!
# The window of the autoscaler

`KnativeScaling` averages the load over a window of buckets, which it keeps in a ring: new buckets
are appended until there are as many as the stable window has scaling periods, then the oldest is
replaced. The number of buckets comes from the configuration that a client sends with a service, and
`RegisterService` does not look at it.

What can go wrong is a `Fault`: a configuration that is missing, a scaling period of `0`, an index
outside the ring. The float arithmetic and `mathutil.Clamp` are a parameter (`FloatOps`), since no
fault depends on them.

* `windowAverage`, `knativeScaling`, `isDownScalingDisabled` — the code.
* `handle` — what may happen to a service: load reports, scaling cycles, checks, changes of scale.
* `Ring` — the invariant of the ring, kept by a cycle (`windowAverage_ok`).
* **`neverFaults_iff`** — an accepted service never faults exactly if its configuration is `Safe`.
* **`sent_bounded_iff`** — what the loop asks for is within the bounds of the configuration exactly
  if these allow `1`, which is what it asks for when it starts.
-/

namespace Dirigent.Autoscaling

open Prog (written solo_withLock_of_ok solo_bind_of_ok solo_perform)

/-- The operations on `float64` that the autoscaler uses, and `mathutil.Clamp` of a library, of
which only the range is known. -/
structure FloatOps (F : Type) where
  ofInt : ℤ → F
  add : F → F → F
  sub : F → F → F
  mul : F → F → F
  div : F → F → F
  max : F → F → F
  min : F → F → F
  ceil : F → F
  floor : F → F
  ge : F → F → Bool
  /-- The conversion `int(x)`. -/
  toInt : F → ℤ
  clamp : ℤ → ℤ → ℤ → ℤ
  clamp_mem : ∀ v lo hi, lo ≤ hi → lo ≤ clamp v lo hi ∧ clamp v lo hi ≤ hi

/-- The `float` fields are kept as the `float64` values they are converted to. -/
structure AutoscalingConfiguration (F : Type) where
  scalingUpperBound : Int32
  scalingLowerBound : Int32
  panicThresholdPercentage : F
  maxScaleUpRate : F
  maxScaleDownRate : F
  containerConcurrency : Int32
  containerConcurrencyTargetPercentage : Int32
  stableWindowWidthSeconds : Int32
  panicWindowWidthSeconds : Int32
  scalingPeriodSeconds : Int32
  scalingMethod : Int32

/-- `Arithmetic` and `Exponential` -/
def arithmetic : Int32 := 0

def exponential : Int32 := 1

structure AutoscalingMetadata (F : Type) where
  actualScale : ℤ := 0
  autoscalingConfig : Option (AutoscalingConfiguration F)
  inPanicMode : Bool := false
  /-- In nanoseconds. -/
  startPanickingTimestamp : ℤ := 0
  maxPanicPods : ℤ := 0
  load : LoadMetric := {}
  scalingMetrics : List F := []
  windowHead : ℤ := 0

inductive Fault
  | nilDereference | divideByZero | indexOutOfRange
  deriving DecidableEq, Repr

section

variable {F : Type}

/-- `xs[i]` -/
def index (xs : List F) (i : ℤ) : Except Fault F :=
  if 0 ≤ i then
    match xs[i.toNat]? with
    | some x => .ok x
    | none => .error .indexOutOfRange
  else .error .indexOutOfRange

/-- `xs[i] = x` -/
def setIndex (xs : List F) (i : ℤ) (x : F) : Except Fault (List F) :=
  if 0 ≤ i ∧ i < xs.length then .ok (xs.set i.toNat x) else .error .indexOutOfRange

/-- The integer division of Go, which truncates. -/
def divide (a b : Int32) : Except Fault Int32 :=
  if b = 0 then .error .divideByZero else .ok (a / b)

def deref {α : Type} : Option α → Except Fault α
  | some x => .ok x
  | none => .error .nilDereference

/-! ## The code -/

/-- One of the two loops of `windowAverage`, with `n` rounds left. The smoothing coefficient is `0`
and so is the multiplier that starts the exponential average. -/
def sumWindow (ops : FloatOps F) (scalingMetrics : List F) (windowLength : ℤ)
    (isExponential : Bool) : ℕ → ℤ → F → F → Except Fault F
  | 0, _, _, sum => .ok sum
  | n + 1, currentWindowIndex, multiplier, sum => do
    let value ← index scalingMetrics currentWindowIndex
    let weighted := if isExponential then ops.mul value multiplier else value
    let multiplier := if isExponential then
      ops.mul (ops.sub (ops.ofInt 1) (ops.ofInt 0)) multiplier else multiplier
    let next := if currentWindowIndex - 1 < 0 then windowLength - 1 else currentWindowIndex - 1
    sumWindow ops scalingMetrics windowLength isExponential n next multiplier (ops.add sum weighted)

/-- An average over at most `bucketCount` buckets from the head on. The length is computed in
`float64`, which has these integers. -/
def average (ops : FloatOps F) (config : AutoscalingConfiguration F) (scalingMetrics : List F)
    (windowHead bucketCount : ℤ) : Except Fault F := do
  let windowLength := min bucketCount scalingMetrics.length
  let sum ← sumWindow ops scalingMetrics windowLength (decide (config.scalingMethod = exponential))
    windowLength.toNat windowHead (ops.ofInt 0) (ops.ofInt 0)
  pure (if config.scalingMethod = arithmetic then ops.div sum (ops.ofInt windowLength) else sum)

/-- Append the value as a new bucket, or replace the oldest one. -/
def record (scalingMetrics : List F) (windowHead stableBucketCount : ℤ) (value : F) :
    Except Fault (List F) :=
  if scalingMetrics.length < stableBucketCount then .ok (scalingMetrics ++ [value])
  else setIndex scalingMetrics windowHead value

/-- `windowAverage` -/
def windowAverage (ops : FloatOps F) (s : AutoscalingMetadata F) (observedStableValue : F) :
    Except Fault ((F × F) × AutoscalingMetadata F) := do
  let config ← deref s.autoscalingConfig
  let panicBucketCount ← divide config.panicWindowWidthSeconds config.scalingPeriodSeconds
  let stableBucketCount ← divide config.stableWindowWidthSeconds config.scalingPeriodSeconds
  let scalingMetrics ← record s.scalingMetrics s.windowHead stableBucketCount.toInt
    observedStableValue
  let avgStable ← average ops config scalingMetrics s.windowHead stableBucketCount.toInt
  let avgPanic ← average ops config scalingMetrics s.windowHead panicBucketCount.toInt
  let windowHead := if s.windowHead + 1 ≥ stableBucketCount.toInt then 0 else s.windowHead + 1
  pure ((avgStable, avgPanic),
    { s with scalingMetrics := scalingMetrics, windowHead := windowHead })

/-- The panic mode in `internalScaleAlgorithm`, for the time `now`. -/
def updatePanicMode (config : AutoscalingConfiguration F) (s : AutoscalingMetadata F)
    (isOverPanicThreshold : Bool) (now : ℤ) : AutoscalingMetadata F :=
  if isOverPanicThreshold then { s with inPanicMode := true, startPanickingTimestamp := now }
  else if s.inPanicMode ∧
      s.startPanickingTimestamp + config.stableWindowWidthSeconds.toInt * 10 ^ 9 < now then
    { s with inPanicMode := false, startPanickingTimestamp := 0, maxPanicPods := 0 }
  else s

/-- The choice between the stable and the panic count. -/
def choosePodCount (s : AutoscalingMetadata F) (desiredStable desiredPanic : ℤ) :
    ℤ × AutoscalingMetadata F :=
  if s.inPanicMode then
    let desired := max desiredStable desiredPanic
    let maxPanicPods := if s.maxPanicPods < desired then desired else s.maxPanicPods
    (maxPanicPods, { s with maxPanicPods := maxPanicPods })
  else (desiredStable, s)

/-- `internalScaleAlgorithm`, at the time `now`. -/
def internalScaleAlgorithm (ops : FloatOps F) (s : AutoscalingMetadata F) (scalingMetric : F)
    (now : ℤ) : Except Fault (ℤ × AutoscalingMetadata F) := do
  let readyPodsCount := ops.max (ops.ofInt 1) (ops.ofInt s.actualScale)
  let config ← deref s.autoscalingConfig
  let maxScaleUp := ops.ceil (ops.mul config.maxScaleUpRate readyPodsCount)
  let maxScaleDown := ops.floor (ops.div readyPodsCount config.maxScaleDownRate)
  let percentage :=
    ops.div (ops.ofInt config.containerConcurrencyTargetPercentage.toInt) (ops.ofInt 100)
  let concurrency :=
    if config.containerConcurrency = 0 then 100 else config.containerConcurrency.toInt
  let desired := ops.mul (ops.ofInt concurrency) percentage
  let ((avgStable, avgPanic), s) ← windowAverage ops s scalingMetric
  let dspc := ops.ceil (ops.div avgStable desired)
  let dppc := ops.ceil (ops.div avgPanic desired)
  let desiredStable := ops.toInt (ops.min (ops.max dspc maxScaleDown) maxScaleUp)
  let desiredPanic := ops.toInt (ops.min (ops.max dppc maxScaleDown) maxScaleUp)
  let isOverPanicThreshold := ops.ge (ops.div dppc readyPodsCount)
    (ops.div config.panicThresholdPercentage (ops.ofInt 100))
  pure (choosePodCount (updatePanicMode config s isOverPanicThreshold now)
    desiredStable desiredPanic)

/-- `KnativeScaling`, at the time `now`. -/
def knativeScaling (ops : FloatOps F) (s : AutoscalingMetadata F) (isScaleFromZero : Bool)
    (now : ℤ) : Except Fault (ℤ × AutoscalingMetadata F) := do
  if isScaleFromZero then pure (1, s)
  else
    let (desiredScale, s) ←
      internalScaleAlgorithm ops s (ops.ofInt s.load.cachedScalingMetric.toInt) now
    let config ← deref s.autoscalingConfig
    pure (ops.clamp desiredScale config.scalingLowerBound.toInt config.scalingUpperBound.toInt, s)

/-- `isDownScalingDisabled`, where `sinceStart` nanoseconds have passed since `StartTime`. -/
def isDownScalingDisabled (s : AutoscalingMetadata F) (sinceStart : ℤ) : Except Fault Bool := do
  let config ← deref s.autoscalingConfig
  pure (decide (sinceStart < config.stableWindowWidthSeconds.toInt * 10 ^ 9))

end

/-! ## What may happen to a service -/

section

variable {F : Type}

inductive Event
  | metricReceived (dataplaneName : String) (inflightRequests : BitVec 32)
  | dataplaneRemoved (dataplaneName : String)
  | scalingCycle (isScaleFromZero : Bool) (now : ℤ)
  | downscalingCheck (sinceStart : ℤ)
  /-- The scaling loop changes `ActualScale`. -/
  | scaled (actualScale : ℤ)

def handle (ops : FloatOps F) (s : AutoscalingMetadata F) : Event →
    Except Fault (AutoscalingMetadata F)
  | .metricReceived name n => .ok { s with load := s.load.setCachedScalingMetric name n }
  | .dataplaneRemoved name => .ok { s with load := s.load.removeDataplane name }
  | .scalingCycle isScaleFromZero now => do
    let (_, s) ← knativeScaling ops s isScaleFromZero now
    pure s
  | .downscalingCheck sinceStart => do
    let _ ← isDownScalingDisabled s sinceStart
    pure s
  | .scaled actualScale => .ok { s with actualScale := actualScale }

/-- The description of a service with the configuration of its autoscaler. -/
structure ServiceInfo (F : Type) extends ControlPlane.ServiceInfo where
  autoscalingConfig : Option (AutoscalingConfiguration F)

/-- `NewPerFunctionStateController`, which also the reconstruction calls. -/
def newMetadata (info : ServiceInfo F) : AutoscalingMetadata F :=
  { autoscalingConfig := info.autoscalingConfig }

/-- There is a control plane whose `RegisterService` answers that the service is registered. -/
def Accepted (info : ServiceInfo F) : Prop :=
  ∃ env s reply s' m, (ControlPlane.registerService info.toServiceInfo).solo ControlPlane.exec env s
    ControlPlane.noLocks = .ok (reply, s', m) ∧ reply.success = true

/-- Whatever happens to the service, nothing faults. -/
def NeverFaults (ops : FloatOps F) (info : ServiceInfo F) : Prop :=
  ∀ es : List Event, ∃ s, es.foldlM (handle ops) (newMetadata info) = .ok s

/-- The configurations that are safe: there is one, with a scaling period, and the stable window has
at least one bucket. -/
def Safe (config : Option (AutoscalingConfiguration F)) : Prop :=
  ∃ c, config = some c ∧ c.scalingPeriodSeconds ≠ 0 ∧
    0 < (c.stableWindowWidthSeconds / c.scalingPeriodSeconds).toInt

/-! ## The ring -/

/-- The ring of a window with `n` buckets: the head is the next bucket to write, at the end as long
as the ring is being filled. -/
structure Ring (n : ℤ) (s : AutoscalingMetadata F) : Prop where
  nonneg : 0 ≤ s.windowHead
  head_lt : s.windowHead < n
  length_le : s.scalingMetrics.length ≤ n
  filling : s.scalingMetrics.length < n → s.windowHead = s.scalingMetrics.length

variable (ops : FloatOps F) {s : AutoscalingMetadata F} {c : AutoscalingConfiguration F} {n : ℤ}

theorem index_ok {xs : List F} {i : ℤ} (h₀ : 0 ≤ i) (hi : i < xs.length) :
    ∃ x, index xs i = .ok x := by
  have hlt : i.toNat < xs.length := by omega
  refine ⟨xs.get ⟨i.toNat, hlt⟩, ?_⟩
  simp [index, h₀, hlt]

theorem sumWindow_ok {xs : List F} {w : ℤ} (isExponential : Bool) (hw : w ≤ xs.length) (k : ℕ)
    (i : ℤ) (multiplier sum : F) (hk : 0 < k → 0 ≤ i ∧ i < xs.length ∧ 0 < w) :
    ∃ v, sumWindow ops xs w isExponential k i multiplier sum = .ok v := by
  induction k generalizing i multiplier sum with
  | zero => exact ⟨sum, rfl⟩
  | succ k ih =>
    obtain ⟨h₀, hi, hpos⟩ := hk (Nat.succ_pos k)
    obtain ⟨x, hx⟩ := index_ok h₀ hi
    simp only [sumWindow, hx]
    refine ih _ _ _ fun _ => ?_
    split
    · omega
    · omega

theorem average_ok (c : AutoscalingConfiguration F) {xs : List F} {head : ℤ} (h₀ : 0 ≤ head)
    (hhead : head < xs.length) (b : ℤ) : ∃ v, average ops c xs head b = .ok v := by
  obtain ⟨sum, hsum⟩ := sumWindow_ok ops (decide (c.scalingMethod = exponential))
    (min_le_right b xs.length) (min b xs.length).toNat head (ops.ofInt 0) (ops.ofInt 0)
    fun _ => ⟨h₀, hhead, by omega⟩
  exact ⟨_, by rw [average, hsum]; rfl⟩

/-- The new value has a place in the ring, and the head points to it. -/
theorem record_ok (hring : Ring n s) (x : F) :
    ∃ xs : List F, record s.scalingMetrics s.windowHead n x = .ok xs ∧ s.windowHead < xs.length ∧
      xs.length ≤ n ∧ (xs.length < n → s.windowHead + 1 = xs.length) := by
  have h₁ := hring.nonneg
  have h₂ := hring.head_lt
  have h₃ := hring.length_le
  by_cases hfilling : (s.scalingMetrics.length : ℤ) < n
  · have h₄ := hring.filling hfilling
    refine ⟨s.scalingMetrics ++ [x], if_pos hfilling, ?_, ?_, ?_⟩
    all_goals simp only [List.length_append, List.length_singleton, Nat.cast_add, Nat.cast_one]
    all_goals omega
  · refine ⟨s.scalingMetrics.set s.windowHead.toNat x, ?_, ?_, ?_, ?_⟩
    · rw [record, if_neg hfilling, setIndex, if_pos ⟨h₁, by omega⟩]
    all_goals simp only [List.length_set]
    all_goals omega

/-- **A cycle stays in the ring.** -/
theorem windowAverage_ok (hc : s.autoscalingConfig = some c) (hperiod : c.scalingPeriodSeconds ≠ 0)
    (hring : Ring (c.stableWindowWidthSeconds / c.scalingPeriodSeconds).toInt s) (x : F) :
    ∃ v xs head, windowAverage ops s x =
        .ok (v, { s with scalingMetrics := xs, windowHead := head }) ∧
      Ring (c.stableWindowWidthSeconds / c.scalingPeriodSeconds).toInt
        { s with scalingMetrics := xs, windowHead := head } := by
  obtain ⟨xs, hxs, hhead, hlen, hfull⟩ := record_ok hring x
  obtain ⟨avgStable, hstable⟩ := average_ok ops c hring.nonneg hhead
    (c.stableWindowWidthSeconds / c.scalingPeriodSeconds).toInt
  obtain ⟨avgPanic, hpanic⟩ := average_ok ops c hring.nonneg hhead
    (c.panicWindowWidthSeconds / c.scalingPeriodSeconds).toInt
  refine ⟨(avgStable, avgPanic), xs,
    if s.windowHead + 1 ≥ (c.stableWindowWidthSeconds / c.scalingPeriodSeconds).toInt then 0
    else s.windowHead + 1, ?_, ?_⟩
  · simp only [windowAverage, hc, deref, divide, hperiod, if_false, bind, Except.bind, pure,
      Except.pure, hxs, hstable, hpanic]
  · have h₁ := hring.nonneg
    have h₂ := hring.head_lt
    refine ⟨?_, ?_, hlen, fun hlt => ?_⟩
    · dsimp only
      split <;> omega
    · dsimp only
      split <;> omega
    · have h₃ := hfull hlt
      dsimp only at hlt ⊢
      split <;> omega

/-! ## Safe configurations -/

/-- A service with the configuration `c` and a ring that fits it. -/
def Sound (c : AutoscalingConfiguration F) (s : AutoscalingMetadata F) : Prop :=
  s.autoscalingConfig = some c ∧
    Ring (c.stableWindowWidthSeconds / c.scalingPeriodSeconds).toInt s

theorem updatePanicMode_sound (h : Sound c s) (isOver : Bool) (now : ℤ) :
    Sound c (updatePanicMode c s isOver now) := by
  obtain ⟨hc, hring⟩ := h
  unfold updatePanicMode
  split_ifs
  · exact ⟨hc, hring.nonneg, hring.head_lt, hring.length_le, hring.filling⟩
  · exact ⟨hc, hring.nonneg, hring.head_lt, hring.length_le, hring.filling⟩
  · exact ⟨hc, hring⟩

theorem choosePodCount_sound (h : Sound c s) (desiredStable desiredPanic : ℤ) :
    Sound c (choosePodCount s desiredStable desiredPanic).2 := by
  obtain ⟨hc, hring⟩ := h
  unfold choosePodCount
  split_ifs
  · exact ⟨hc, hring.nonneg, hring.head_lt, hring.length_le, hring.filling⟩
  · exact ⟨hc, hring⟩

theorem deref_ok (h : Sound c s) : deref s.autoscalingConfig = .ok c := by
  rw [h.1]
  rfl

theorem internalScaleAlgorithm_ok (hperiod : c.scalingPeriodSeconds ≠ 0) (h : Sound c s) (x : F)
    (now : ℤ) :
    ∃ desired s', internalScaleAlgorithm ops s x now = .ok (desired, s') ∧ Sound c s' := by
  obtain ⟨v, xs, head, haverage, hring⟩ := windowAverage_ok ops h.1 hperiod h.2 x
  have hsound : Sound c { s with scalingMetrics := xs, windowHead := head } := ⟨h.1, hring⟩
  simp only [internalScaleAlgorithm, deref_ok h, haverage, bind, Except.bind, pure, Except.pure]
  exact ⟨_, _, rfl, choosePodCount_sound (updatePanicMode_sound hsound _ now) _ _⟩

theorem knativeScaling_ok (hperiod : c.scalingPeriodSeconds ≠ 0) (h : Sound c s)
    (isScaleFromZero : Bool) (now : ℤ) :
    ∃ raw s', knativeScaling ops s isScaleFromZero now = .ok (if isScaleFromZero then 1 else
      ops.clamp raw c.scalingLowerBound.toInt c.scalingUpperBound.toInt, s') ∧ Sound c s' := by
  cases isScaleFromZero with
  | true => exact ⟨1, s, rfl, h⟩
  | false =>
    obtain ⟨desired, s', hscale, hs'⟩ := internalScaleAlgorithm_ok ops hperiod h
      (ops.ofInt s.load.cachedScalingMetric.toInt) now
    simp only [knativeScaling, hscale, deref_ok hs', bind, Except.bind, pure, Except.pure,
      Bool.false_eq_true, if_false]
    exact ⟨_, s', rfl, hs'⟩

/-- **An event keeps the service sound**, and does not fault. -/
theorem handle_ok (hperiod : c.scalingPeriodSeconds ≠ 0) (h : Sound c s) (e : Event) :
    ∃ s', handle ops s e = .ok s' ∧ Sound c s' := by
  have h' := h
  obtain ⟨hc, hring⟩ := h'
  cases e with
  | metricReceived name n | dataplaneRemoved name | scaled actualScale =>
    exact ⟨_, rfl, hc, hring.nonneg, hring.head_lt, hring.length_le, hring.filling⟩
  | downscalingCheck sinceStart =>
    refine ⟨s, ?_, h⟩
    rw [handle, isDownScalingDisabled, deref_ok h]
    rfl
  | scalingCycle isScaleFromZero now =>
    obtain ⟨desired, s', hcycle, hs'⟩ := knativeScaling_ok ops hperiod h isScaleFromZero now
    refine ⟨s', ?_, hs'⟩
    rw [handle, hcycle]
    rfl

theorem foldlM_handle_ok (hperiod : c.scalingPeriodSeconds ≠ 0) (h : Sound c s) (es : List Event) :
    ∃ s', es.foldlM (handle ops) s = .ok s' := by
  induction es generalizing s with
  | nil => exact ⟨s, rfl⟩
  | cons e es ih =>
    obtain ⟨s', hs', hsound⟩ := handle_ok ops hperiod h e
    rw [List.foldlM_cons, hs']
    exact ih hsound

/-! ## Unsafe configurations -/

/-- `RegisterService` does not look at the configuration: a new control plane accepts every
service. -/
theorem accepted (info : ServiceInfo F) : Accepted info := by
  let env : ControlPlane.Act → ControlPlane.Choice := fun _ => .ok
  let s := ControlPlane.newControlPlane false false
  obtain ⟨s', hs', hflag⟩ := ControlPlane.solo_notifyDataplanesAndStartScalingLoop env
    (m := Function.update ControlPlane.noLocks .siStorage written) rfl info.toServiceInfo false
    { s with storedServices := s.storedServices.insert info.name info.toServiceInfo }
  refine ⟨env, s, { success := true }, s', ControlPlane.noLocks, solo_withLock_of_ok rfl ?_, rfl⟩
  rw [solo_bind_of_ok (solo_perform rfl)]
  refine (solo_bind_of_ok (solo_perform rfl)).trans ?_
  refine (solo_bind_of_ok hs').trans ((solo_bind_of_ok (solo_perform rfl)).trans ?_)
  rw [hflag]
  rfl

theorem windowAverage_newMetadata (info : ServiceInfo F) (hc : info.autoscalingConfig = some c)
    (hperiod : c.scalingPeriodSeconds ≠ 0)
    (hstable : (c.stableWindowWidthSeconds / c.scalingPeriodSeconds).toInt ≤ 0) (x : F) :
    windowAverage ops (newMetadata info) x = .error .indexOutOfRange := by
  have hrecord : record ([] : List F) 0
    (c.stableWindowWidthSeconds / c.scalingPeriodSeconds).toInt x =
      .error .indexOutOfRange := by
    rw [record, if_neg (by simpa using hstable)]
    rfl
  simp only [windowAverage, newMetadata, hc, deref, divide, hperiod, if_false, bind, Except.bind,
    hrecord]

theorem handle_scalingCycle_of_windowAverage {e : Fault} (now : ℤ)
    (hc : s.autoscalingConfig = some c)
    (h : windowAverage ops s (ops.ofInt s.load.cachedScalingMetric.toInt) = .error e) :
    handle ops s (.scalingCycle false now) = .error e := by
  simp only [handle, knativeScaling, internalScaleAlgorithm, hc, deref, h, bind, Except.bind,
    Bool.false_eq_true, if_false]

/-- A service that never faults has a safe configuration: otherwise the first check or the first
cycle faults. -/
theorem safe_of_neverFaults {info : ServiceInfo F} (h : NeverFaults ops info) :
    Safe info.autoscalingConfig := by
  cases hc : info.autoscalingConfig with
  | none =>
    obtain ⟨s, hs⟩ := h [.downscalingCheck 0]
    rw [List.foldlM_cons, handle, isDownScalingDisabled, newMetadata, hc] at hs
    cases hs
  | some c =>
    obtain ⟨s, hs⟩ := h [.scalingCycle false 0]
    have hcycle : ∀ e : Fault, windowAverage ops (newMetadata info)
        (ops.ofInt (newMetadata info).load.cachedScalingMetric.toInt) ≠ .error e := by
      intro e haverage
      rw [List.foldlM_cons, handle_scalingCycle_of_windowAverage ops 0 hc haverage] at hs
      cases hs
    have hperiod : c.scalingPeriodSeconds ≠ 0 := by
      intro hzero
      refine hcycle .divideByZero ?_
      simp only [windowAverage, newMetadata, hc, deref, divide, hzero, if_true, bind, Except.bind]
    refine ⟨c, rfl, hperiod, ?_⟩
    by_contra hstable
    exact hcycle _ (windowAverage_newMetadata ops info hc hperiod (by omega) _)

theorem ring_newMetadata (info : ServiceInfo F) (hn : 0 < n) : Ring n (newMetadata info) where
  nonneg := le_rfl
  head_lt := hn
  length_le := hn.le
  filling := fun _ => rfl

/-- **No accepted service crashes the autoscaler exactly if its configuration is safe.** -/
theorem neverFaults_iff (info : ServiceInfo F) :
    (Accepted info → NeverFaults ops info) ↔ Safe info.autoscalingConfig := by
  constructor
  · intro h
    exact safe_of_neverFaults ops (h (accepted info))
  · rintro ⟨c, hc, hperiod, hstable⟩ - es
    exact foldlM_handle_ok ops hperiod ⟨hc, ring_newMetadata info hstable⟩ es

end

/-- `float64`. What `int(x)` gives outside the range of the type is left open by the language; here
it is the nearest bound. -/
def float64 : FloatOps Float where
  ofInt := Float.ofInt
  add := (· + ·)
  sub := (· - ·)
  mul := (· * ·)
  div := (· / ·)
  max := Max.max
  min := Min.min
  ceil := Float.ceil
  floor := Float.floor
  ge x y := decide (y ≤ x)
  toInt x := x.toInt64.toInt
  clamp v lo hi := Min.min (Max.max v lo) hi
  clamp_mem _ _ _ h := ⟨le_min (le_max_right _ _) h, min_le_right _ _⟩

/-- The service of `TestRegisterServices` has no configuration. It is accepted, and the first
scaling cycle dereferences the missing configuration. -/
theorem exists_accepted_fault : ∃ info : ServiceInfo Float, info.autoscalingConfig = none ∧
    Accepted info ∧
    handle float64 (newMetadata info) (.scalingCycle false 0) = .error .nilDereference :=
  ⟨⟨⟨"mock1", "", 0, 0⟩, none⟩, rfl, accepted _, rfl⟩

/-! ## The scaling bounds -/

section

variable {F : Type} (ops : FloatOps F) {s : AutoscalingMetadata F} {c : AutoscalingConfiguration F}

/-- What `ScalingLoop` sends on `DesiredStateChannel`. The cycle from zero is the one that `Start`
makes at once, unless a loop is running; the others are ticks of the running loop; `none` is a stop.
-/
def sent : AutoscalingMetadata F → Bool → List (Option Event) → Except Fault (List ℤ)
  | _, _, [] => .ok []
  | s, _, none :: es => sent s false es
  | s, running, some (.scalingCycle isScaleFromZero now) :: es =>
    if running = isScaleFromZero then sent s running es
    else do
      let (desiredScale, s) ← knativeScaling ops s isScaleFromZero now
      let later ← sent s (desiredScale != 0) es
      pure (desiredScale :: later)
  | s, running, some e :: es => do
    let s ← handle ops s e
    sent s running es

theorem sent_ok (hperiod : c.scalingPeriodSeconds ≠ 0) (h : Sound c s) (running : Bool)
    (es : List (Option Event)) : ∃ ns, sent ops s running es = .ok ns ∧
      ∀ n ∈ ns, n = 1 ∨ ∃ raw,
        n = ops.clamp raw c.scalingLowerBound.toInt c.scalingUpperBound.toInt := by
  induction es generalizing s running with
  | nil => exact ⟨[], by simp [sent], by simp⟩
  | cons e es ih =>
    cases e with
    | none => simpa [sent] using ih h false
    | some e =>
      by_cases hcycle : ∃ b now, e = .scalingCycle b now
      · obtain ⟨b, now, rfl⟩ := hcycle
        by_cases hskip : running = b
        · simpa [sent, hskip] using ih h b
        · obtain ⟨raw, s', hs', hsound⟩ := knativeScaling_ok ops hperiod h b now
          obtain ⟨ns, hns, hall⟩ := ih hsound ((if b then 1 else
            ops.clamp raw c.scalingLowerBound.toInt c.scalingUpperBound.toInt) != 0)
          simp only [sent, hskip, if_false, hs', bind, Except.bind, hns]
          refine ⟨_, rfl, ?_⟩
          rintro n (_ | ⟨_, hn⟩)
          · cases b with
            | true => exact .inl rfl
            | false => exact .inr ⟨raw, rfl⟩
          · exact hall n hn
      · obtain ⟨s', hs', hsound⟩ := handle_ok ops hperiod h e
        have hstep : sent ops s running (some e :: es) = sent ops s' running es := by
          cases e with
          | scalingCycle b now => exact absurd ⟨b, now, rfl⟩ hcycle
          | _ => simp only [sent, hs', bind, Except.bind]
        rw [hstep]
        exact ih hsound running

/-- **When the desired counts are within the bounds**: the bounds allow `1`. -/
theorem sent_bounded_iff (info : ServiceInfo F) (hc : info.autoscalingConfig = some c)
    (hperiod : c.scalingPeriodSeconds ≠ 0)
    (hstable : 0 < (c.stableWindowWidthSeconds / c.scalingPeriodSeconds).toInt)
    (hle : c.scalingLowerBound.toInt ≤ c.scalingUpperBound.toInt) :
    (∀ es, ∃ ns, sent ops (newMetadata info) false es = .ok ns ∧
      ∀ n ∈ ns, c.scalingLowerBound.toInt ≤ n ∧ n ≤ c.scalingUpperBound.toInt) ↔
      c.scalingLowerBound.toInt ≤ 1 ∧ 1 ≤ c.scalingUpperBound.toInt := by
  constructor
  · intro h
    obtain ⟨ns, hns, hall⟩ := h [some (.scalingCycle true 0)]
    obtain rfl : [1] = ns := Except.ok.inj hns
    exact hall 1 (List.mem_singleton_self 1)
  · intro hone es
    obtain ⟨ns, hns, hall⟩ := sent_ok ops hperiod ⟨hc, ring_newMetadata info hstable⟩ false es
    refine ⟨ns, hns, fun n hn => ?_⟩
    rcases hall n hn with rfl | ⟨raw, rfl⟩
    · exact hone
    · exact ops.clamp_mem _ _ _ hle

end

/-- A service with these bounds. -/
def boundedService (lower upper : Int32) : ServiceInfo Float :=
  ⟨⟨"f", "image", 1, 1⟩, some ⟨upper, lower, 200, 1000, 2, 1, 100, 60, 6, 2, arithmetic⟩⟩

theorem sent_bounded_upTo_ten :
    ∃ ns, sent float64 (newMetadata (boundedService 0 10)) false
      [some (.scalingCycle true 0), some (.scalingCycle false 0)] = .ok ns ∧
      ∀ n ∈ ns, 0 ≤ n ∧ n ≤ 10 :=
  (sent_bounded_iff float64 (boundedService 0 10) rfl (by decide) (by decide) (by decide)).2
    (by decide) _

/-- A service that should have no sandbox, or at least two, gets one when the loop starts. -/
theorem sent_start : sent float64 (newMetadata (boundedService 0 0)) false
      [some (.scalingCycle true 0)] = .ok [1] ∧
    sent float64 (newMetadata (boundedService 2 5)) false [some (.scalingCycle true 0)] = .ok [1] :=
  ⟨rfl, rfl⟩

end Dirigent.Autoscaling
