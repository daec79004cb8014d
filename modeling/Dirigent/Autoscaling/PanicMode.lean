import Dirigent.Autoscaling.Averages

/-!
# The panic mode

`internalScaleAlgorithm` is called once in each scaling period. A call whose panic average asks for
too many pods puts the service into panic mode, and so does every later one: each writes the time
to `StartPanickingTimestamp`. A call leaves panic mode once the stable window has passed since then.

**One call (`Scaled`).** What a call does to the mode, to its time stamp and to `MaxPanicPods`, and
what it returns: `MaxPanicPods` in panic mode, and the clamped stable count otherwise.

**A run (`ScaledAll`).** Within a stretch in panic mode `MaxPanicPods` only grows
(`ScaledAll.pairwise_desired`). A call over the threshold leaves its own time, and no later call
leaves an earlier time while the mode lasts (`ScaledAll.lt_of_leaves`).

* `panicMode_contract` — the counts never decrease in panic mode, the call that enters it returns at
  least the pods there are, it ends only after a quiet stable window, and outside of it the count is
  between the limits of the scaling rates.
-/

namespace Dirigent.Autoscaling

section

variable {F : Type}

/-- A call of `internalScaleAlgorithm`: its argument, what `ActualScale` is by then, and the time.
-/
structure ScaleCall (F : Type) where
  scalingMetric : F
  actualScale : ℤ
  now : ℤ

/-- The test of the panic threshold in `internalScaleAlgorithm`. -/
def isOverPanicThreshold (ops : FloatOps F) (s : AutoscalingMetadata F) (scalingMetric : F) :
    Except Fault Bool := do
  let readyPodsCount := ops.max (ops.ofInt 1) (ops.ofInt s.actualScale)
  let config ← deref s.autoscalingConfig
  let percentage :=
    ops.div (ops.ofInt config.containerConcurrencyTargetPercentage.toInt) (ops.ofInt 100)
  let concurrency :=
    if config.containerConcurrency = 0 then 100 else config.containerConcurrency.toInt
  let desired := ops.mul (ops.ofInt concurrency) percentage
  let ((_, avgPanic), _) ← windowAverage ops s scalingMetric
  let dppc := ops.ceil (ops.div avgPanic desired)
  pure (ops.ge (ops.div dppc readyPodsCount) (ops.div config.panicThresholdPercentage
    (ops.ofInt 100)))

/-- A call and what came of it. -/
structure ScaleResult (F : Type) where
  call : ScaleCall F
  before : AutoscalingMetadata F
  isOver : Bool
  desired : ℤ
  after : AutoscalingMetadata F

/-- One call. -/
def scale (ops : FloatOps F) (s : AutoscalingMetadata F) (call : ScaleCall F) :
    Except Fault (ScaleResult F) := do
  let before := { s with actualScale := call.actualScale }
  let isOver ← isOverPanicThreshold ops before call.scalingMetric
  let (desired, after) ← internalScaleAlgorithm ops before call.scalingMetric call.now
  pure ⟨call, before, isOver, desired, after⟩

/-- Successive calls. -/
def scaleAll (ops : FloatOps F) (s : AutoscalingMetadata F) :
    List (ScaleCall F) → Except Fault (List (ScaleResult F))
  | [] => pure []
  | call :: calls => do
    let r ← scale ops s call
    let rs ← scaleAll ops r.after calls
    pure (r :: rs)

/-- The stable window, in nanoseconds. -/
def AutoscalingConfiguration.stableWindow (c : AutoscalingConfiguration F) : ℤ :=
  c.stableWindowWidthSeconds.toInt * 10 ^ 9

/-- The call puts the service into panic mode. -/
def ScaleResult.Enters (r : ScaleResult F) : Prop :=
  r.before.inPanicMode = false ∧ r.after.inPanicMode = true

/-- The call ends panic mode. -/
def ScaleResult.Leaves (r : ScaleResult F) : Prop :=
  r.before.inPanicMode = true ∧ r.after.inPanicMode = false

/-- The pods there are, and one if there are none. -/
def ScaleResult.readyPods (r : ScaleResult F) : ℤ := max 1 r.call.actualScale

end

/-- The configurations in question. -/
structure Configured (c : AutoscalingConfiguration ℚ) : Prop where
  maxScaleUpRate : 0 < c.maxScaleUpRate
  maxScaleDownRate : 0 < c.maxScaleDownRate
  percentage : 0 < c.containerConcurrencyTargetPercentage.toInt
  concurrency : 0 ≤ c.containerConcurrency.toInt
  stable : 1 ≤ c.stableBuckets
  panic : 1 ≤ c.panicBuckets

/-- What the calls of a run return. -/
structure PanicContract (c : AutoscalingConfiguration ℚ) (rs : List (ScaleResult ℚ)) : Prop where
  never_decreases : ∀ stretch, stretch <:+: rs → (∀ r ∈ stretch, r.after.inPanicMode = true) →
    (stretch.map (·.desired)).Pairwise (· ≤ ·)
  enters : 100 ≤ c.panicThresholdPercentage → 1 ≤ c.maxScaleUpRate →
    ∀ r ∈ rs, r.Enters → r.readyPods ≤ r.desired
  leaves : ∀ earlier r later, rs = earlier ++ r :: later → r.Leaves →
    ∀ q ∈ earlier ++ [r], r.call.now - c.stableWindow ≤ q.call.now → q.isOver = false
  outside : ∀ r ∈ rs, r.after.inPanicMode = false →
    min ⌊r.readyPods / c.maxScaleDownRate⌋ ⌈c.maxScaleUpRate * r.readyPods⌉ ≤ r.desired ∧
      r.desired ≤ ⌈c.maxScaleUpRate * r.readyPods⌉

/-! ## One call -/

/-- What one call does from the metadata `s`. -/
structure Scaled (c : AutoscalingConfiguration ℚ) (s : AutoscalingMetadata ℚ) (r : ScaleResult ℚ) :
    Prop where
  before : r.before = { s with actualScale := r.call.actualScale }
  isOver : r.isOver = true → r.after.inPanicMode = true ∧
    r.after.startPanickingTimestamp = r.call.now
  stays : r.isOver = false → r.after.inPanicMode = true →
    s.inPanicMode = true ∧ r.after.startPanickingTimestamp = s.startPanickingTimestamp
  leaves : s.inPanicMode = true → r.after.inPanicMode = false →
    s.startPanickingTimestamp + c.stableWindow < r.call.now
  desired : r.after.inPanicMode = true →
    r.desired = r.after.maxPanicPods ∧ s.maxPanicPods ≤ r.after.maxPanicPods
  enters : 100 ≤ c.panicThresholdPercentage → 1 ≤ c.maxScaleUpRate →
    r.isOver = true → r.readyPods ≤ r.desired
  outside : r.after.inPanicMode = false →
    min ⌊r.readyPods / c.maxScaleDownRate⌋ ⌈c.maxScaleUpRate * r.readyPods⌉ ≤ r.desired ∧
      r.desired ≤ ⌈c.maxScaleUpRate * r.readyPods⌉

variable {c : AutoscalingConfiguration ℚ} {s : AutoscalingMetadata ℚ} {r : ScaleResult ℚ}
  {rs : List (ScaleResult ℚ)}

theorem toInt_intCast (n : ℤ) : exactOps.toInt (n : ℚ) = n := by
  simp [exactOps]

/-- The count `⌈dpc⌉`, clamped to the limits of the rates. -/
def podCount (c : AutoscalingConfiguration ℚ) (ready : ℤ) (dpc : ℚ) : ℤ :=
  min (max ⌈dpc⌉ ⌊ready / c.maxScaleDownRate⌋) ⌈c.maxScaleUpRate * ready⌉

theorem toInt_clamp (dpc : ℚ) (c : AutoscalingConfiguration ℚ) (ready : ℤ) :
    exactOps.toInt (exactOps.min (exactOps.max (exactOps.ceil dpc)
        (exactOps.floor (exactOps.div (ready : ℚ) c.maxScaleDownRate)))
        (exactOps.ceil (exactOps.mul c.maxScaleUpRate ready))) = podCount c ready dpc := by
  unfold podCount
  rw [← toInt_intCast (min _ _)]
  push_cast
  rfl

theorem ready_eq (actualScale : ℤ) :
    exactOps.max (exactOps.ofInt 1) (exactOps.ofInt actualScale) =
      ((max 1 actualScale : ℤ) : ℚ) := by
  push_cast
  rfl

theorem choosePodCount_mode (a b : ℤ) : (choosePodCount s a b).2.inPanicMode = s.inPanicMode ∧
    (choosePodCount s a b).2.startPanickingTimestamp = s.startPanickingTimestamp := by
  unfold choosePodCount
  split_ifs <;> exact ⟨rfl, rfl⟩

theorem choosePodCount_panic (h : s.inPanicMode = true) (a b : ℤ) :
    (choosePodCount s a b).1 = (choosePodCount s a b).2.maxPanicPods ∧
      s.maxPanicPods ≤ (choosePodCount s a b).2.maxPanicPods ∧ b ≤ (choosePodCount s a b).1 := by
  have hb := le_max_right a b
  rw [choosePodCount, if_pos h]
  refine ⟨rfl, ?_, ?_⟩
  · dsimp only
    split_ifs <;> omega
  · dsimp only
    split_ifs <;> omega

theorem choosePodCount_stable (h : s.inPanicMode = false) (a b : ℤ) :
    (choosePodCount s a b).1 = a := by
  rw [choosePodCount, if_neg (by simp [h])]

/-- Without a surge the mode can only end, and its marks stay as long as it lasts. -/
theorem updatePanicMode_quiet (now : ℤ)
    (h : (updatePanicMode c s false now).inPanicMode = true) :
    updatePanicMode c s false now = s ∧ s.inPanicMode = true := by
  rw [updatePanicMode, if_neg Bool.false_ne_true] at h ⊢
  split_ifs at h ⊢ with hpassed
  exact ⟨rfl, h⟩

theorem updatePanicMode_leaves {isOver : Bool} {now : ℤ} (hs : s.inPanicMode = true)
    (h : (updatePanicMode c s isOver now).inPanicMode = false) :
    s.startPanickingTimestamp + c.stableWindow < now := by
  unfold updatePanicMode at h
  split_ifs at h with hover hpassed
  · exact hpassed.2
  · rw [hs] at h
    exact absurd h Bool.true_eq_false_eq_False

/-- **A surge asks for the pods there are**, at least. -/
theorem ready_le_of_over {dpc : ℚ} {ready : ℤ} (hready : 1 ≤ ready)
    (hpercentage : 100 ≤ c.panicThresholdPercentage)
    (hover : c.panicThresholdPercentage / 100 ≤ (⌈dpc⌉ : ℚ) / ready) : ready ≤ ⌈dpc⌉ := by
  have hpos : (0 : ℚ) < ready := by exact_mod_cast hready
  have hone : (1 : ℚ) ≤ c.panicThresholdPercentage / 100 := by linarith
  have hle : (ready : ℚ) ≤ ⌈dpc⌉ := by
    rw [← one_le_div hpos]
    exact hone.trans hover
  exact_mod_cast hle

theorem ready_le_scaleUp {ready : ℤ} (hready : 1 ≤ ready) (hrate : 1 ≤ c.maxScaleUpRate) :
    ready ≤ ⌈c.maxScaleUpRate * ready⌉ := by
  have hpos : (0 : ℚ) ≤ ready := by exact_mod_cast (by omega : 0 ≤ ready)
  have hle : (ready : ℚ) ≤ c.maxScaleUpRate * ready := le_mul_of_one_le_left hpos hrate
  exact_mod_cast hle.trans (Int.le_ceil _)

/-- **What the choice of a count does**, where `s₁` has the marks of `s`. -/
theorem scaled_choosePodCount {s₁ : AutoscalingMetadata ℚ} (hmode : s₁.inPanicMode = s.inPanicMode)
    (hstamp : s₁.startPanickingTimestamp = s.startPanickingTimestamp)
    (hmax : s₁.maxPanicPods = s.maxPanicPods) (call : ScaleCall ℚ) {isOver : Bool} {dspc dppc : ℚ}
    (hover : isOver = true → c.panicThresholdPercentage / 100 ≤
      ⌈dppc⌉ / (max 1 call.actualScale : ℤ)) :
    Scaled c s ⟨call, { s with actualScale := call.actualScale }, isOver,
      (choosePodCount (updatePanicMode c s₁ isOver call.now)
        (podCount c (max 1 call.actualScale) dspc) (podCount c (max 1 call.actualScale) dppc)).1,
      (choosePodCount (updatePanicMode c s₁ isOver call.now)
        (podCount c (max 1 call.actualScale) dspc)
          (podCount c (max 1 call.actualScale) dppc)).2⟩ := by
  have hready : 1 ≤ max 1 call.actualScale := le_max_left _ _
  constructor
  case before => rfl
  case isOver =>
    rintro rfl
    rw [(choosePodCount_mode _ _).1, (choosePodCount_mode _ _).2]
    exact ⟨rfl, rfl⟩
  case stays =>
    rintro rfl h
    rw [(choosePodCount_mode _ _).1] at h
    obtain ⟨heq, hpanic⟩ := updatePanicMode_quiet call.now h
    rw [(choosePodCount_mode _ _).2, heq, hstamp, ← hmode]
    exact ⟨hpanic, rfl⟩
  case leaves =>
    intro hs h
    rw [(choosePodCount_mode _ _).1] at h
    rw [← hstamp]
    exact updatePanicMode_leaves (hmode.trans hs) h
  case desired =>
    intro h
    rw [(choosePodCount_mode _ _).1] at h
    obtain ⟨heq, hle, -⟩ := choosePodCount_panic h (podCount c (max 1 call.actualScale) dspc)
      (podCount c (max 1 call.actualScale) dppc)
    refine ⟨heq, le_trans (le_of_eq ?_) hle⟩
    cases isOver with
    | true => exact hmax.symm
    | false => rw [(updatePanicMode_quiet call.now h).1, hmax]
  case enters =>
    intro hpercentage hrate hsurge
    subst hsurge
    have hpanic : (updatePanicMode c s₁ true call.now).inPanicMode = true := rfl
    refine le_trans ?_ (choosePodCount_panic hpanic _ _).2.2
    exact le_min (le_max_of_le_left (ready_le_of_over hready hpercentage (hover rfl)))
      (ready_le_scaleUp hready hrate)
  case outside =>
    intro h
    rw [(choosePodCount_mode _ _).1] at h
    rw [choosePodCount_stable h]
    exact ⟨min_le_min_right _ (le_max_right _ _), min_le_right _ _⟩

/-- **One call** returns, and does what `Scaled` says. -/
theorem scale_ok (hperiod : c.scalingPeriodSeconds ≠ 0) (h : Sound c s) (call : ScaleCall ℚ) :
    ∃ r, scale exactOps s call = .ok r ∧ r.call = call ∧ Sound c r.after ∧ Scaled c s r := by
  have hbefore : Sound c { s with actualScale := call.actualScale } :=
    ⟨h.1, h.2.nonneg, h.2.head_lt, h.2.length_le, h.2.filling⟩
  obtain ⟨⟨avgStable, avgPanic⟩, xs, head, haverage, hring⟩ :=
    windowAverage_ok exactOps hbefore.1 hperiod hbefore.2 call.scalingMetric
  have hsound : Sound c
    { s with actualScale := call.actualScale, scalingMetrics := xs, windowHead := head } :=
    ⟨h.1, hring⟩
  simp only [scale, isOverPanicThreshold, internalScaleAlgorithm, deref_ok hbefore, haverage, bind,
    Except.bind, pure, Except.pure, ready_eq, toInt_clamp]
  refine ⟨_, rfl, rfl, choosePodCount_sound (updatePanicMode_sound hsound _ _) _ _, ?_⟩
  refine scaled_choosePodCount ?_ ?_ ?_ call ?_
  · rfl
  · rfl
  · rfl
  · intro hover
    exact of_decide_eq_true hover

/-! ## A run -/

/-- The results of successive calls from the metadata `s`. -/
def ScaledAll (c : AutoscalingConfiguration ℚ) : AutoscalingMetadata ℚ → List (ScaleResult ℚ) → Prop
  | _, [] => True
  | s, r :: rs => Scaled c s r ∧ ScaledAll c r.after rs

/-- **A run** returns, and each of its calls does what `Scaled` says. -/
theorem scaleAll_ok (hperiod : c.scalingPeriodSeconds ≠ 0) (h : Sound c s)
    (calls : List (ScaleCall ℚ)) :
    ∃ rs, scaleAll exactOps s calls = .ok rs ∧ rs.map (·.call) = calls ∧ ScaledAll c s rs := by
  induction calls generalizing s with
  | nil => exact ⟨[], rfl, rfl, trivial⟩
  | cons call calls ih =>
    obtain ⟨r, hr, hcall, hsound, hscaled⟩ := scale_ok hperiod h call
    obtain ⟨rs, hrs, hcalls, hall⟩ := ih hsound
    refine ⟨r :: rs, ?_, ?_, hscaled, hall⟩
    · simp only [scaleAll, hr, hrs, bind, Except.bind]
      rfl
    · rw [List.map_cons, hcall, hcalls]

namespace ScaledAll

variable {earlier later : List (ScaleResult ℚ)}

theorem of_append (h : ScaledAll c s (earlier ++ later)) :
    ∃ s', ScaledAll c s' later := by
  induction earlier generalizing s with
  | nil => exact ⟨s, h⟩
  | cons r earlier ih => exact ih h.2

theorem left (h : ScaledAll c s (earlier ++ later)) :
    ScaledAll c s earlier := by
  induction earlier generalizing s with
  | nil => trivial
  | cons r earlier ih => exact ⟨h.1, ih h.2⟩

theorem scaled (h : ScaledAll c s rs) (hr : r ∈ rs) : ∃ s', Scaled c s' r := by
  obtain ⟨earlier, later, rfl⟩ := List.append_of_mem hr
  obtain ⟨s', hs'⟩ := h.of_append
  exact ⟨s', hs'.1⟩

/-- **In panic mode the counts never decrease**, from the high-water mark on. -/
theorem pairwise_desired (h : ScaledAll c s rs) (hpanic : ∀ r ∈ rs, r.after.inPanicMode = true) :
    (s.maxPanicPods :: rs.map (·.desired)).Pairwise (· ≤ ·) := by
  induction rs generalizing s with
  | nil => exact List.pairwise_singleton _ _
  | cons r rs ih =>
    obtain ⟨hdesired, hle⟩ := h.1.desired (hpanic r List.mem_cons_self)
    have hrest := ih h.2 fun q hq => hpanic q (List.mem_cons_of_mem r hq)
    rw [← hdesired] at hrest hle
    refine List.pairwise_cons.2 ⟨?_, hrest⟩
    intro d hd
    rcases List.mem_cons.1 hd with rfl | hd
    · exact hle
    · exact hle.trans ((List.pairwise_cons.1 hrest).1 d hd)

/-- **A time that the mode has been extended at** is before the stable window of every call that
ends it. -/
theorem lt_of_leaves {time : ℤ} (h : ScaledAll c s rs)
    (hs : s.inPanicMode = true → time ≤ s.startPanickingTimestamp)
    (hclock : ∀ q ∈ rs, time ≤ q.call.now) (hr : r ∈ rs) (hleaves : r.Leaves) :
    time + c.stableWindow < r.call.now := by
  induction rs generalizing s with
  | nil => simp at hr
  | cons q rs ih =>
    rcases List.mem_cons.1 hr with rfl | hr
    · have hmode : s.inPanicMode = true := by simpa [h.1.before] using hleaves.1
      have hpassed := h.1.leaves hmode hleaves.2
      have hstamp := hs hmode
      omega
    · refine ih h.2 ?_ (fun q' hq' => hclock q' (List.mem_cons_of_mem q hq')) hr
      intro hq
      cases hover : q.isOver with
      | true =>
        rw [(h.1.isOver hover).2]
        exact hclock q List.mem_cons_self
      | false =>
        obtain ⟨hmode, hstamp⟩ := h.1.stays hover hq
        rw [hstamp]
        exact hs hmode

/-- **No call in the stable window before the end of the mode was over the threshold.** -/
theorem quiet_of_leaves (h : ScaledAll c s (earlier ++ r :: later))
    (hclock : (earlier ++ r :: later).Pairwise fun q r => q.call.now ≤ r.call.now)
    (hleaves : r.Leaves) {q : ScaleResult ℚ} (hq : q ∈ earlier ++ [r])
    (hwindow : r.call.now - c.stableWindow ≤ q.call.now) : q.isOver = false := by
  by_contra hover
  have hover : q.isOver = true := by simpa using hover
  rcases List.mem_append.1 hq with hq | hq
  · -- the run from the call over the threshold on
    obtain ⟨first, rest, rfl⟩ := List.append_of_mem hq
    rw [List.append_assoc, List.cons_append] at h hclock
    obtain ⟨s', hq', hrest⟩ := h.of_append
    have hlater := (List.pairwise_cons.1 (List.pairwise_append.1 hclock).2.1).1
    have hlt := hrest.lt_of_leaves (fun _ => (hq'.isOver hover).2.ge) hlater
      (List.mem_append_right rest List.mem_cons_self) hleaves
    omega
  · rw [List.mem_singleton] at hq
    subst hq
    obtain ⟨s', hs'⟩ := h.scaled (List.mem_append_right earlier List.mem_cons_self)
    have hpanic := (hs'.isOver hover).1
    rw [hleaves.2] at hpanic
    exact Bool.false_ne_true hpanic

end ScaledAll

theorem sound_freshMetadata (hS : 1 ≤ c.stableBuckets) : Sound c (freshMetadata c) := by
  have hlength : ((freshMetadata c).scalingMetrics.length : ℤ) ≤ c.stableBuckets := by
    show ((0 : ℕ) : ℤ) ≤ c.stableBuckets
    omega
  exact ⟨rfl, le_rfl, hS, hlength, fun _ => rfl⟩

/-- **The contract of the panic mode**, in every run from a fresh service. -/
theorem panicMode_contract (hc : Configured c) (calls : List (ScaleCall ℚ))
    (hclock : calls.Pairwise fun a b => a.now ≤ b.now) :
    ∃ rs, scaleAll exactOps (freshMetadata c) calls = .ok rs ∧ rs.map (·.call) = calls ∧
      PanicContract c rs := by
  obtain ⟨rs, hrs, hcalls, hall⟩ :=
    scaleAll_ok (period_ne_zero hc.stable) (sound_freshMetadata hc.stable) calls
  refine ⟨rs, hrs, hcalls, ?_, ?_, ?_, ?_⟩
  · rintro stretch ⟨earlier, later, rfl⟩ hpanic
    obtain ⟨s, hs⟩ := hall.left.of_append
    exact (hs.pairwise_desired hpanic).of_cons
  · intro hpercentage hrate r hr henters
    obtain ⟨s, hs⟩ := hall.scaled hr
    refine hs.enters hpercentage hrate ?_
    by_contra hquiet
    have hmode := (hs.stays (by simpa using hquiet) henters.2).1
    have hbefore := henters.1
    rw [hs.before] at hbefore
    rw [hbefore] at hmode
    exact Bool.false_ne_true hmode
  · rintro earlier r later rfl hleaves q hq hwindow
    refine hall.quiet_of_leaves ?_ hleaves hq hwindow
    rwa [← hcalls, List.pairwise_map] at hclock
  · intro r hr hmode
    obtain ⟨s, hs⟩ := hall.scaled hr
    exact hs.outside hmode

theorem configured_default : Configured (newDefaultAutoscalingMetadata exactOps false) where
  maxScaleUpRate := by decide +kernel
  maxScaleDownRate := by decide +kernel
  percentage := by decide
  concurrency := by decide
  stable := by decide
  panic := by decide

/-- A surge and two quiet minutes, with the default configuration. -/
theorem panicMode_contract_surge :
    ∃ rs, scaleAll exactOps (freshMetadata (newDefaultAutoscalingMetadata exactOps false))
        [⟨8, 1, 0⟩, ⟨0, 8, 2000000000⟩, ⟨0, 8, 120000000000⟩] = .ok rs ∧
      rs.map (·.call) = [⟨8, 1, 0⟩, ⟨0, 8, 2000000000⟩, ⟨0, 8, 120000000000⟩] ∧
        PanicContract (newDefaultAutoscalingMetadata exactOps false) rs :=
  panicMode_contract configured_default [⟨8, 1, 0⟩, ⟨0, 8, 2000000000⟩, ⟨0, 8, 120000000000⟩]
    (by simp)

end Dirigent.Autoscaling
