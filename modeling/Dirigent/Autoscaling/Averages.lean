import Dirigent.Autoscaling.Window
import Mathlib.Data.List.DropRight
import Mathlib.Algebra.BigOperators.Fin

/-!
# What the windows average

`windowAverage` keeps the last values in a ring of `S` buckets, one for each scaling period of the
stable window, and takes two averages over it, both walking backwards from the bucket it has just
written. Over exact numbers (`exactOps`) the averages are compared with the values passed so far.

**The ring (`Recorded`).** After `n` values the ring has `min n S` buckets, and the value `j` calls
ago is in bucket `(n - 1 - j) % S`.

**The walk (`back`).** A loop over a window of `w` buckets goes from bucket `0` to bucket `w - 1`.
For the stable window `w` is the number of buckets there are, so the walk visits each of them once.
The panic window has `P ≤ S` buckets and goes on at `P - 1`, which is the bucket of an older value
once the ring has been filled, unless it starts at `P - 1` or higher.

* `stableAverages` — the stable average is the mean of the last `S` values, in every call.
* `panicAverages_iff` — the panic average of the `n`-th call is the mean of the last `P` values, for
  all values, exactly if `n ≤ S`, or `P = S`, or the `n`-th value goes to bucket `P - 1` or higher.
-/

namespace Dirigent.Autoscaling

/-- Exact arithmetic. -/
def exactOps : FloatOps ℚ where
  ofInt n := n
  add := (· + ·)
  sub := (· - ·)
  mul := (· * ·)
  div := (· / ·)
  max := max
  min := min
  ceil x := ⌈x⌉
  floor x := ⌊x⌋
  ge x y := decide (y ≤ x)
  toInt x := if 0 ≤ x then ⌊x⌋ else ⌈x⌉
  clamp := float64.clamp
  clamp_mem := float64.clamp_mem

section

variable {F : Type}

/-- `NewDefaultAutoscalingMetadata` -/
def newDefaultAutoscalingMetadata (ops : FloatOps F) (coldStartSweep : Bool) :
    AutoscalingConfiguration F where
  scalingUpperBound := if coldStartSweep then 1 else 2147483647
  scalingLowerBound := 0
  panicThresholdPercentage := ops.ofInt 200
  maxScaleUpRate := ops.ofInt 1000
  maxScaleDownRate := ops.ofInt 2
  containerConcurrency := 1
  containerConcurrencyTargetPercentage := 100
  stableWindowWidthSeconds := if coldStartSweep then 6 else 60
  panicWindowWidthSeconds := if coldStartSweep then 2 else 6
  scalingPeriodSeconds := 2
  scalingMethod := arithmetic

/-- The metadata of a service that nothing has happened to. -/
def freshMetadata (c : AutoscalingConfiguration F) : AutoscalingMetadata F :=
  { autoscalingConfig := some c }

/-- Successive calls of `windowAverage`: what they return, and the metadata they leave. -/
def windowAverages (ops : FloatOps F) (s : AutoscalingMetadata F) :
    List F → Except Fault (List (F × F) × AutoscalingMetadata F)
  | [] => pure ([], s)
  | x :: xs => do
    let (avg, s) ← windowAverage ops s x
    let (avgs, s) ← windowAverages ops s xs
    pure (avg :: avgs, s)

end

def mean (xs : List ℚ) : ℚ := xs.sum / xs.length

/-- `StableWindowWidthSeconds / ScalingPeriodSeconds` -/
def AutoscalingConfiguration.stableBuckets (c : AutoscalingConfiguration ℚ) : ℤ :=
  (c.stableWindowWidthSeconds / c.scalingPeriodSeconds).toInt

/-- `PanicWindowWidthSeconds / ScalingPeriodSeconds` -/
def AutoscalingConfiguration.panicBuckets (c : AutoscalingConfiguration ℚ) : ℤ :=
  (c.panicWindowWidthSeconds / c.scalingPeriodSeconds).toInt

/-! ## Walking backwards -/

/-- One step of a loop over a window of `w` buckets. -/
def previous (w i : ℤ) : ℤ := if i - 1 < 0 then w - 1 else i - 1

/-- The bucket after `j` steps from bucket `i`. -/
def back (w i : ℤ) (j : ℕ) : ℤ := (previous w)^[j] i

variable {w i : ℤ} {xs buckets : List ℚ} {k n j : ℕ}

/-- **Where the walk is.** It goes down to bucket `0` and on from bucket `w - 1`. -/
theorem back_eq (hi : 0 ≤ i) (j : ℕ) (hj : j ≤ i + w) :
    back w i j = if (j : ℤ) ≤ i then i - j else i + w - j := by
  induction j with
  | zero => simp [back, hi]
  | succ j ih =>
    have hback : back w i (j + 1) = previous w (back w i j) := Function.iterate_succ_apply' _ _ _
    push_cast at hj ⊢
    rw [hback, ih (by omega), previous]
    split_ifs <;> omega

/-- **What a loop adds up**, if `f j` is in the bucket after `j` steps. -/
theorem sumWindow_eq (k : ℕ) (i : ℤ) (multiplier sum : ℚ) (f : ℕ → ℚ)
    (hf : ∀ j < k, index xs (back w i j) = .ok (f j)) :
    sumWindow exactOps xs w false k i multiplier sum = .ok (sum + ∑ j ∈ Finset.range k, f j) := by
  induction k generalizing i sum f with
  | zero => simp [sumWindow]
  | succ k ih =>
    have hfirst : index xs i = .ok (f 0) := hf 0 (Nat.succ_pos k)
    have hrest := ih (previous w i) (sum + f 0) (fun j => f (j + 1)) fun j hj =>
      hf (j + 1) (Nat.succ_lt_succ hj)
    have hstep : sumWindow exactOps xs w false (k + 1) i multiplier sum =
        sumWindow exactOps xs w false k (previous w i) multiplier (sum + f 0) := by
      simp only [sumWindow, hfirst, bind, Except.bind]
      rfl
    rw [hstep, hrest, Finset.sum_range_succ', add_assoc, add_comm (f 0)]

theorem average_eq {c : AutoscalingConfiguration ℚ} (hmethod : c.scalingMethod = arithmetic)
    {head b : ℤ} (hk : min b xs.length = k) (f : ℕ → ℚ)
    (hf : ∀ j < k, index xs (back k head j) = .ok (f j)) :
    average exactOps c xs head b = .ok ((∑ j ∈ Finset.range k, f j) / k) := by
  have hexp : decide (c.scalingMethod = exponential) = false := by
    rw [hmethod]
    rfl
  have hsum : ∀ multiplier, sumWindow exactOps xs k false k head multiplier (exactOps.ofInt 0) =
      .ok (∑ j ∈ Finset.range k, f j) := by
    intro multiplier
    have hzero : exactOps.ofInt 0 = (0 : ℚ) := rfl
    rw [sumWindow_eq k head multiplier _ f hf, hzero, zero_add]
  simp only [average, hk, hexp, Int.toNat_natCast, hsum, bind, Except.bind]
  rw [if_pos hmethod]
  rfl

/-! ## The ring -/

/-- The ring of `S` buckets after the values `past`, latest first. -/
structure Recorded (S : ℕ) (past : List ℚ) (s : AutoscalingMetadata ℚ) : Prop where
  length : s.scalingMetrics.length = min past.length S
  head : s.windowHead = (past.length % S : ℕ)
  bucket : ∀ j < min past.length S, s.scalingMetrics[(past.length - 1 - j) % S]? = past[j]?

/-- The buckets once the value `x` has been recorded. -/
structure RecordedNow (S : ℕ) (past : List ℚ) (x : ℚ) (buckets : List ℚ) : Prop where
  length : buckets.length = min (past.length + 1) S
  bucket : ∀ j < min (past.length + 1) S, buckets[(past.length - j) % S]? = (x :: past)[j]?

variable {S P : ℕ} {past : List ℚ} {s : AutoscalingMetadata ℚ} {c : AutoscalingConfiguration ℚ}
  {x : ℚ}

theorem mod_ne_of_lt (hj : 0 < j) (hjS : j < S) (hjn : j ≤ n) : (n - j) % S ≠ n % S := by
  intro h
  have hdvd : S ∣ n - (n - j) := (Nat.modEq_iff_dvd' (Nat.sub_le n j)).1 h
  rw [Nat.sub_sub_self hjn] at hdvd
  exact absurd (Nat.le_of_dvd hj hdvd) (by omega)

/-- **The new value goes to the bucket of the oldest**, or to a new one. -/
theorem Recorded.record (h : Recorded S past s) (hS : 1 ≤ S) (x : ℚ) :
    ∃ buckets, Autoscaling.record s.scalingMetrics s.windowHead S x = .ok buckets ∧
      RecordedNow S past x buckets := by
  by_cases hfill : past.length < S
  · -- the ring is being filled
    have hlength : s.scalingMetrics.length = past.length := by
      rw [h.length]
      omega
    refine ⟨s.scalingMetrics ++ [x], ?_, ?_, ?_⟩
    · rw [Autoscaling.record, if_pos (by omega)]
    · simp only [List.length_append, List.length_singleton]
      omega
    · intro j hj
      rw [Nat.mod_eq_of_lt (by omega)]
      cases j with
      | zero =>
        rw [Nat.sub_zero, ← hlength, List.getElem?_concat_length]
        rfl
      | succ j =>
        have hold := h.bucket j (by omega)
        rw [Nat.mod_eq_of_lt (by omega)] at hold
        rw [List.getElem?_append_left (by omega), List.getElem?_cons_succ, ← hold]
        congr 1
        omega
  · -- the ring is full
    have hlength : s.scalingMetrics.length = S := by
      rw [h.length]
      omega
    have hlt : past.length % S < S := Nat.mod_lt _ hS
    refine ⟨s.scalingMetrics.set (past.length % S) x, ?_, ?_, ?_⟩
    · rw [Autoscaling.record, if_neg (by omega), setIndex, h.head, if_pos (by omega),
        Int.toNat_natCast]
    · rw [List.length_set, hlength]
      omega
    · intro j hj
      cases j with
      | zero =>
        rw [Nat.sub_zero, List.getElem?_set_self (by omega)]
        rfl
      | succ j =>
        have hne : (past.length - (j + 1)) % S ≠ past.length % S :=
          mod_ne_of_lt (Nat.succ_pos j) (by omega) (by omega)
        have hold := h.bucket j (by omega)
        rw [List.getElem?_set_ne hne.symm, List.getElem?_cons_succ, ← hold]
        congr 2
        omega

theorem getD_eq (hj : j < xs.length) : xs.getD j 0 = xs[j] := by
  simp [List.getD, hj]

theorem RecordedNow.index_eq (h : RecordedNow S past x buckets) (hj : j < min (past.length + 1) S)
    (hi : i = ((past.length - j) % S : ℕ)) :
    index buckets i = .ok ((x :: past).getD j 0) := by
  have hlt : j < (x :: past).length := by
    rw [List.length_cons]
    omega
  have hbucket := h.bucket j hj
  rw [List.getElem?_eq_getElem hlt] at hbucket
  rw [hi, index, if_pos (Int.natCast_nonneg _), Int.toNat_natCast, hbucket, getD_eq hlt]

theorem sum_take (hk : k ≤ xs.length) :
    ∑ j ∈ Finset.range k, xs.getD j 0 = (xs.take k).sum := by
  induction k with
  | zero => simp
  | succ k ih =>
    have hlt : k < xs.length := hk
    rw [Finset.sum_range_succ, ih hlt.le, getD_eq hlt, List.sum_take_succ _ _ hlt]

theorem mean_take (hk : k ≤ xs.length) :
    (∑ j ∈ Finset.range k, xs.getD j 0) / k = mean (xs.take k) := by
  rw [sum_take hk, mean, List.length_take, min_eq_left hk]

theorem head_mod_lt (hS : 1 ≤ S) (past : List ℚ) :
    past.length % S < S ∧ past.length % S ≤ past.length :=
  ⟨Nat.mod_lt _ hS, Nat.mod_le _ _⟩

theorem sub_mod_of_le (hS : 1 ≤ S) (hj : j ≤ n % S) : (n - j) % S = n % S - j := by
  have hn := Nat.div_add_mod n S
  have hsplit : n - j = (n % S - j) + S * (n / S) := by omega
  rw [hsplit, Nat.add_mul_mod_self_left]
  exact Nat.mod_eq_of_lt (lt_of_le_of_lt (Nat.sub_le _ _) (Nat.mod_lt _ hS))

theorem sub_mod_of_lt (hj : n % S < j) (hjS : j < S) (hjn : j ≤ n) :
    (n - j) % S = n % S + S - j := by
  have hn := Nat.div_add_mod n S
  have hpos : 1 ≤ n / S := by
    refine Nat.div_pos ?_ (by omega)
    by_contra hless
    rw [Nat.mod_eq_of_lt (by omega)] at hj
    omega
  obtain ⟨q, hq⟩ := Nat.exists_eq_add_of_le hpos
  have hmul : S * (n / S) = S + S * q := by rw [hq, Nat.mul_add, Nat.mul_one]
  have hsplit : n - j = (n % S + S - j) + S * q := by omega
  rw [hsplit, Nat.add_mul_mod_self_left]
  exact Nat.mod_eq_of_lt (by omega)

/-- The walk over the whole ring visits the values latest first. -/
theorem RecordedNow.index_stable (h : RecordedNow S past x buckets) (hS : 1 ≤ S)
    (hj : j < min (past.length + 1) S) :
    index buckets (back (min (past.length + 1) S : ℕ) (past.length % S : ℕ) j) =
      .ok ((x :: past).getD j 0) := by
  obtain ⟨hlt, hle⟩ := head_mod_lt hS past
  refine h.index_eq hj ?_
  rw [back_eq (Int.natCast_nonneg _) j (by omega)]
  by_cases hjh : j ≤ past.length % S
  · rw [if_pos (by omega), sub_mod_of_le hS hjh]
    omega
  · -- past bucket `0`, which happens only where the ring is full
    have hfull : S ≤ past.length := by
      by_contra hfill
      rw [Nat.mod_eq_of_lt (by omega)] at hjh
      omega
    rw [if_neg (by omega), sub_mod_of_lt (by omega) (by omega) (by omega)]
    omega

/-- The walk over a part of the ring does so, as long as it does not pass bucket `0`. -/
theorem RecordedNow.index_of_le (h : RecordedNow S past x buckets) (hS : 1 ≤ S) (w : ℤ)
    (hw : 0 ≤ w) (hj : j ≤ past.length % S) :
    index buckets (back w (past.length % S : ℕ) j) = .ok ((x :: past).getD j 0) := by
  obtain ⟨hlt, hle⟩ := head_mod_lt hS past
  refine h.index_eq (by omega) ?_
  rw [back_eq (Int.natCast_nonneg _) j (by omega), if_pos (by omega), sub_mod_of_le hS hj]
  omega

theorem succ_mod (n : ℕ) (hS : 1 ≤ S) : (n + 1) % S = if n % S + 1 ≥ S then 0 else n % S + 1 := by
  have hlt := Nat.mod_lt n hS
  rw [← Nat.mod_add_mod]
  split_ifs with hlast
  · rw [show n % S + 1 = S by omega, Nat.mod_self]
  · exact Nat.mod_eq_of_lt (by omega)

theorem period_ne_zero (hS : 1 ≤ c.stableBuckets) : c.scalingPeriodSeconds ≠ 0 := by
  intro hzero
  rw [AutoscalingConfiguration.stableBuckets, hzero, Int32.div_zero] at hS
  exact absurd hS (by decide)

/-- **One call**: the buckets it averages over, and the ring it leaves. -/
theorem Recorded.windowAverage (h : Recorded S past s) (hc : s.autoscalingConfig = some c)
    (hS : c.stableBuckets = S) (hpos : 1 ≤ S) (x : ℚ) :
    ∃ buckets s', RecordedNow S past x buckets ∧ Recorded S (x :: past) s' ∧
      s'.autoscalingConfig = some c ∧ Autoscaling.windowAverage exactOps s x = (do
        let avgStable ← average exactOps c buckets (past.length % S : ℕ) S
        let avgPanic ← average exactOps c buckets (past.length % S : ℕ) c.panicBuckets
        pure ((avgStable, avgPanic), s')) := by
  have hperiod := period_ne_zero (c := c) (by omega)
  obtain ⟨buckets, hrecord, hnow⟩ := h.record hpos x
  obtain ⟨hlt, hle⟩ := head_mod_lt hpos past
  refine ⟨buckets, { s with
    scalingMetrics := buckets
    windowHead := if s.windowHead + 1 ≥ S then 0 else s.windowHead + 1 }, hnow,
      ⟨?_, ?_, ?_⟩, hc, ?_⟩
  · simpa using hnow.length
  · dsimp only
    rw [h.head, List.length_cons, succ_mod _ hpos]
    split_ifs <;> omega
  · intro j hj
    simpa using hnow.bucket j (by simpa using hj)
  · have hstable : (c.stableWindowWidthSeconds / c.scalingPeriodSeconds).toInt = S := hS
    rw [h.head] at hrecord
    simp only [Autoscaling.windowAverage, hc, deref, divide, hperiod, if_false, bind, Except.bind,
      hstable, h.head, hrecord, AutoscalingConfiguration.panicBuckets]

/-! ## The stable window -/

/-- **The stable average of one call** is the mean of the last `S` values. -/
theorem RecordedNow.average_stable (h : RecordedNow S past x buckets) (hS : 1 ≤ S)
    (hmethod : c.scalingMethod = arithmetic) :
    average exactOps c buckets (past.length % S : ℕ) S = .ok (mean ((x :: past).take S)) := by
  have hk : min (S : ℤ) buckets.length = (min (past.length + 1) S : ℕ) := by
    rw [h.length]
    omega
  have hle : min (past.length + 1) S ≤ (x :: past).length := by
    rw [List.length_cons]
    omega
  have htake : (x :: past).take (min (past.length + 1) S) = (x :: past).take S := by
    rw [← List.length_cons (a := x), min_comm, ← List.take_eq_take_min]
  rw [average_eq hmethod hk _ fun j hj => h.index_stable hS hj, mean_take hle, htake]

theorem Recorded.windowAverages {Q : List ℚ → ℚ × ℚ → Prop}
    (hcall : ∀ {past s}, Recorded S past s → s.autoscalingConfig = some c → ∀ x, ∃ avg s',
      Autoscaling.windowAverage exactOps s x = .ok (avg, s') ∧ Recorded S (x :: past) s' ∧
        s'.autoscalingConfig = some c ∧ Q (x :: past) avg)
    (h : Recorded S past s) (hc : s.autoscalingConfig = some c) (xs : List ℚ) :
    ∃ avgs s', Autoscaling.windowAverages exactOps s xs = .ok (avgs, s') ∧
      Recorded S (xs.reverse ++ past) s' ∧ avgs.length = xs.length ∧
        ∀ n avg, avgs[n]? = some avg → Q ((xs.take (n + 1)).reverse ++ past) avg := by
  -- by induction on the values; the first call leaves a ring that the others start from
  induction xs generalizing past s with
  | nil => exact ⟨[], s, rfl, h, rfl, fun n avg hn => by simp at hn⟩
  | cons x xs ih =>
    obtain ⟨avg, s₁, hcall₁, h₁, hc₁, hQ⟩ := hcall h hc x
    obtain ⟨avgs, s₂, hcalls, h₂, hlength, hQs⟩ := ih h₁ hc₁
    refine ⟨avg :: avgs, s₂, ?_, ?_, ?_, ?_⟩
    · simp only [Autoscaling.windowAverages, hcall₁, hcalls, bind, Except.bind]
      rfl
    · simpa using h₂
    · simp [hlength]
    · intro n avg' hn
      cases n with
      | zero =>
        rw [List.getElem?_cons_zero, Option.some.injEq] at hn
        subst hn
        simpa using hQ
      | succ n =>
        rw [List.getElem?_cons_succ] at hn
        simpa using hQs n avg' hn

theorem recorded_freshMetadata (S : ℕ) : Recorded S [] (freshMetadata c) :=
  ⟨by simp [freshMetadata], by simp [freshMetadata], fun j hj => by simp at hj⟩

/-- **One call does not fail**, and returns the mean of the last `S` values. -/
theorem Recorded.call (h : Recorded S past s) (hc : s.autoscalingConfig = some c)
    (hS : c.stableBuckets = S) (hpos : 1 ≤ S) (hmethod : c.scalingMethod = arithmetic) (x : ℚ) :
    ∃ avg s', Autoscaling.windowAverage exactOps s x = .ok (avg, s') ∧ Recorded S (x :: past) s' ∧
      s'.autoscalingConfig = some c ∧ avg.1 = mean ((x :: past).take S) ∧
        ∃ buckets, RecordedNow S past x buckets ∧
          average exactOps c buckets (past.length % S : ℕ) c.panicBuckets = .ok avg.2 := by
  obtain ⟨buckets, s', hnow, hrecorded, hc', hcall⟩ := h.windowAverage hc hS hpos x
  obtain ⟨hlt, hle⟩ := head_mod_lt hpos past
  obtain ⟨avgPanic, hpanic⟩ := average_ok exactOps c (Int.natCast_nonneg (past.length % S))
    (by rw [hnow.length]; omega : ((past.length % S : ℕ) : ℤ) < buckets.length) c.panicBuckets
  refine ⟨(mean ((x :: past).take S), avgPanic), s', ?_, hrecorded, hc', rfl, buckets, hnow, hpanic⟩
  rw [hcall, hnow.average_stable hpos hmethod, hpanic]
  rfl

theorem mean_reverse (xs : List ℚ) : mean xs.reverse = mean xs := by
  rw [mean, mean, List.sum_reverse, List.length_reverse]

theorem mean_rtake (xs : List ℚ) (k : ℕ) : mean (xs.rtake k) = mean (xs.reverse.take k) := by
  rw [List.rtake_eq_reverse_take_reverse, mean_reverse]

/-- **The stable window.** No call goes out of range, each returns the mean of the last `S` values
and there are never more than `S` buckets. -/
theorem stableAverages (hmethod : c.scalingMethod = arithmetic) (hS : 1 ≤ c.stableBuckets)
    (xs : List ℚ) :
    ∃ avgs s, windowAverages exactOps (freshMetadata c) xs = .ok (avgs, s) ∧
      avgs.length = xs.length ∧ (s.scalingMetrics.length : ℤ) ≤ c.stableBuckets ∧
        ∀ n avg, avgs[n]? = some avg →
          avg.1 = mean ((xs.take (n + 1)).rtake c.stableBuckets.toNat) := by
  obtain ⟨S, hbuckets⟩ := Int.eq_ofNat_of_zero_le (show 0 ≤ c.stableBuckets by omega)
  rw [hbuckets] at hS
  obtain ⟨avgs, s, hcalls, hrecorded, hlength, hmeans⟩ :=
    (recorded_freshMetadata S).windowAverages (c := c)
      (Q := fun seen avg => avg.1 = mean (seen.take S))
      (fun h hc x => by
        obtain ⟨avg, s', hcall, h', hc', hmean, -⟩ := h.call hc hbuckets (by omega) hmethod x
        exact ⟨avg, s', hcall, h', hc', hmean⟩) rfl xs
  refine ⟨avgs, s, hcalls, hlength, ?_, ?_⟩
  · rw [hrecorded.length, hbuckets]
    omega
  · intro n avg hn
    rw [hbuckets, Int.toNat_natCast, mean_rtake]
    simpa using hmeans n avg hn

/-- The means of one, two, three and again three values. -/
theorem stableAverages_four :
    ∃ avgs s, windowAverages exactOps (freshMetadata (newDefaultAutoscalingMetadata exactOps true))
        [3, 5, 10, 30] = .ok (avgs, s) ∧ avgs.length = 4 ∧ (s.scalingMetrics.length : ℤ) ≤ 3 ∧
      ∀ n avg, avgs[n]? = some avg → avg.1 = mean (([3, 5, 10, 30].take (n + 1)).rtake 3) :=
  stableAverages (c := newDefaultAutoscalingMetadata exactOps true) rfl (by decide) [3, 5, 10, 30]

/-! ## The panic window -/

/-- The panic average of the `n`-th call is the mean of the last values, whatever the values are. -/
def PanicAverages (c : AutoscalingConfiguration ℚ) (n : ℕ) : Prop :=
  ∀ xs : List ℚ, xs.length = n → ∃ avgs s avg,
    windowAverages exactOps (freshMetadata c) xs = .ok (avgs, s) ∧ avgs.getLast? = some avg ∧
      avg.2 = mean (xs.rtake c.panicBuckets.toNat)

/-- Where the walk over `P` buckets goes through the latest `P` values. -/
def InStep (S P n : ℕ) : Prop := n ≤ S ∨ P = S ∨ P ≤ (n - 1) % S + 1

/-- **The panic average of one call**, where the walk goes through the latest values. -/
theorem RecordedNow.average_panic (h : RecordedNow S past x buckets) (hPS : P ≤ S) (hP : 1 ≤ P)
    (hmethod : c.scalingMethod = arithmetic) (hstep : InStep S P (past.length + 1)) :
    average exactOps c buckets (past.length % S : ℕ) P = .ok (mean ((x :: past).take P)) := by
  have hS : 1 ≤ S := hP.trans hPS
  rcases eq_or_ne P S with rfl | hne
  · exact h.average_stable hS hmethod
  have hk : min (P : ℤ) buckets.length = (min P (past.length + 1) : ℕ) := by
    rw [h.length]
    omega
  have hle : min P (past.length + 1) ≤ (x :: past).length := by
    rw [List.length_cons]
    omega
  -- the walk does not reach bucket `0` before it ends
  have hhead : min P (past.length + 1) ≤ past.length % S + 1 := by
    rcases hstep with hfill | heq | hhigh
    · rw [Nat.mod_eq_of_lt (by omega)]
      omega
    · exact absurd heq hne
    · rw [Nat.add_sub_cancel] at hhigh
      omega
  have htake : (x :: past).take (min P (past.length + 1)) = (x :: past).take P := by
    rw [← List.length_cons (a := x), ← List.take_eq_take_min]
  rw [average_eq hmethod hk _ fun j hj => h.index_of_le hS _ (Int.natCast_nonneg _) (by omega),
    mean_take hle, htake]

/-- `n` values, latest first, of which only the one `a` calls ago is not zero. -/
def pulse (a n : ℕ) : List ℚ := (List.range n).map fun j => if j = a then 1 else 0

theorem getD_pulse (a n j : ℕ) : (pulse a n).getD j 0 = if j = a ∧ j < n then 1 else 0 := by
  by_cases hj : j < n
  · simp [pulse, List.getD, hj]
  · simp [pulse, List.getD, hj]

theorem mean_pulse {a n : ℕ} (ha : a < P) (hP : P ≤ n) : mean ((pulse a n).take P) = 1 / P := by
  have hlength : P ≤ (pulse a n).length := by simpa [pulse] using hP
  rw [← mean_take hlength, Finset.sum_eq_single_of_mem a (Finset.mem_range.2 ha)]
  · rw [getD_pulse, if_pos ⟨rfl, by omega⟩]
  · intro j _ hne
    rw [getD_pulse, if_neg fun h => hne h.1]

/-- **The walk that goes on at bucket `P - 1`** misses the value in bucket `S - 1`. -/
theorem RecordedNow.average_pulse (h : RecordedNow S past x buckets) (hP : P < S)
    (hmethod : c.scalingMethod = arithmetic) (hfull : S ≤ past.length)
    (hhead : past.length % S + 1 < P)
    (hpulse : x :: past = pulse (past.length % S + 1) (past.length + 1)) :
    average exactOps c buckets (past.length % S : ℕ) P = .ok 0 := by
  have hk : min (P : ℤ) buckets.length = P := by
    rw [h.length]
    omega
  -- bucket `i < P` has a value that is as old as its distance from the head
  have hread : ∀ j < P, index buckets (back P (past.length % S : ℕ) j) = .ok 0 := by
    intro j hj
    have hzero : ∀ a, a ≠ past.length % S + 1 → (x :: past).getD a 0 = 0 := by
      intro a ha
      rw [hpulse, getD_pulse, if_neg fun h => ha h.1]
    rw [back_eq (Int.natCast_nonneg _) j (by omega)]
    by_cases hjh : j ≤ past.length % S
    · rw [← hzero j (by omega)]
      refine h.index_eq (by omega) ?_
      rw [if_pos (by omega), sub_mod_of_le (by omega) hjh]
      omega
    · rw [← hzero (S - P + j) (by omega)]
      refine h.index_eq (by omega) ?_
      rw [if_neg (by omega), sub_mod_of_lt (by omega) (by omega) (by omega)]
      omega
  rw [average_eq hmethod hk (fun _ => 0) hread, Finset.sum_const_zero, zero_div]

theorem windowAverages_last (hmethod : c.scalingMethod = arithmetic) (hS : c.stableBuckets = S)
    (hpos : 1 ≤ S) (xs : List ℚ) (hxs : xs ≠ []) :
    ∃ avgs s avg past x buckets, windowAverages exactOps (freshMetadata c) xs = .ok (avgs, s) ∧
      avgs.getLast? = some avg ∧ xs.reverse = x :: past ∧ RecordedNow S past x buckets ∧
        average exactOps c buckets (past.length % S : ℕ) c.panicBuckets = .ok avg.2 := by
  obtain ⟨avgs, s, hcalls, -, hlength, hall⟩ :=
    (recorded_freshMetadata S).windowAverages (c := c)
      (Q := fun seen avg => ∃ past x buckets, seen = x :: past ∧ RecordedNow S past x buckets ∧
        average exactOps c buckets (past.length % S : ℕ) c.panicBuckets = .ok avg.2)
      (fun {past s} h hc x => by
        obtain ⟨avg, s', hcall, h', hc', -, buckets, hnow, hpanic⟩ := h.call hc hS hpos hmethod x
        exact ⟨avg, s', hcall, h', hc', past, x, buckets, rfl, hnow, hpanic⟩) rfl xs
  have hlast : avgs.length - 1 < avgs.length := by
    have := List.length_pos_of_ne_nil hxs
    omega
  obtain ⟨past, x, buckets, hseen, hnow, hpanic⟩ :=
    hall (avgs.length - 1) _ (List.getElem?_eq_getElem hlast)
  refine ⟨avgs, s, _, past, x, buckets, hcalls, ?_, ?_, hnow, hpanic⟩
  · rw [List.getLast?_eq_getElem?, List.getElem?_eq_getElem hlast]
  · rw [List.append_nil, Nat.sub_add_cancel (by omega), hlength, List.take_length] at hseen
    exact hseen

/-- **The panic window.** The panic average of the `n`-th call is the mean of the last `P` values,
for all values, exactly if the walk does not leave the latest values. -/
theorem panicAverages_iff (hmethod : c.scalingMethod = arithmetic) (hP : 1 ≤ c.panicBuckets)
    (hPS : c.panicBuckets ≤ c.stableBuckets) {n : ℕ} (hn : 1 ≤ n) :
    PanicAverages c n ↔ InStep c.stableBuckets.toNat c.panicBuckets.toNat n := by
  obtain ⟨P, hpanic⟩ := Int.eq_ofNat_of_zero_le (show 0 ≤ c.panicBuckets by omega)
  obtain ⟨S, hstable⟩ := Int.eq_ofNat_of_zero_le (show 0 ≤ c.stableBuckets by omega)
  rw [hpanic] at hP hPS
  rw [hstable] at hPS
  rw [hpanic, hstable, Int.toNat_natCast, Int.toNat_natCast]
  constructor
  · -- a pulse that the walk should meet first after bucket `0`
    intro hall
    by_contra hstep
    simp only [InStep, not_or] at hstep
    have hmod : (n - 1) % S < S := Nat.mod_lt _ (by omega)
    have hlength : (pulse ((n - 1) % S + 1) n).reverse.length = n := by simp [pulse]
    have hne : (pulse ((n - 1) % S + 1) n).reverse ≠ [] := by
      intro hnil
      rw [hnil, List.length_nil] at hlength
      omega
    obtain ⟨avgs, s, avg, past, x, buckets, hcalls, hlast, hseen, hnow, haverage⟩ :=
      windowAverages_last hmethod hstable (by omega) _ hne
    obtain ⟨avgs', s', avg', hcalls', hlast', hmean⟩ := hall _ hlength
    rw [hcalls, Except.ok.injEq, Prod.mk.injEq] at hcalls'
    obtain ⟨rfl, rfl⟩ := hcalls'
    rw [hlast, Option.some.injEq] at hlast'
    subst hlast'
    rw [List.reverse_reverse] at hseen
    have hpast : n = past.length + 1 := by
      rw [← List.length_cons (a := x), ← hseen]
      simp [pulse]
    subst hpast
    rw [Nat.add_sub_cancel] at hstep hseen hmean
    rw [hpanic] at haverage hmean
    rw [hnow.average_pulse (by omega) hmethod (by omega) (by omega) hseen.symm, Except.ok.injEq]
      at haverage
    rw [← haverage, mean_rtake, List.reverse_reverse, Int.toNat_natCast,
      mean_pulse (by omega) (by omega), eq_comm, div_eq_zero_iff] at hmean
    rcases hmean with hone | hzero
    · exact one_ne_zero hone
    · have : P = 0 := by exact_mod_cast hzero
      omega
  · intro hstep xs hlength
    have hne : xs ≠ [] := by
      intro hnil
      rw [hnil, List.length_nil] at hlength
      omega
    obtain ⟨avgs, s, avg, past, x, buckets, hcalls, hlast, hseen, hnow, haverage⟩ :=
      windowAverages_last hmethod hstable (by omega) xs hne
    refine ⟨avgs, s, avg, hcalls, hlast, ?_⟩
    have hpast : past.length + 1 = n := by
      rw [← List.length_cons (a := x), ← hseen, List.length_reverse, hlength]
    rw [hpanic, hnow.average_panic (by omega) (by omega) hmethod (hpast ▸ hstep),
      Except.ok.injEq] at haverage
    rw [← haverage, mean_rtake, hseen, hpanic, Int.toNat_natCast]

/-- The default configuration: of `30` buckets, the value of the call `33` goes to bucket `2`. -/
theorem panicAverages_default :
    PanicAverages (newDefaultAutoscalingMetadata exactOps false) 33 :=
  (panicAverages_iff (c := newDefaultAutoscalingMetadata exactOps false) rfl (by decide) (by decide)
    (by decide)).2 (Or.inr (Or.inr (by decide)))

/-- The default configuration: the call `31` averages the values `31`, `3` and `2` and misses the
value of the call before it. -/
theorem panicAverage_stale :
    ((windowAverages exactOps (freshMetadata (newDefaultAutoscalingMetadata exactOps false))
        (List.replicate 29 0 ++ [3, 0])).toOption.bind fun run => run.1.getLast?).map Prod.snd =
      some 0 ∧
    mean ((List.replicate 29 0 ++ [3, 0]).rtake
      (newDefaultAutoscalingMetadata exactOps false).panicBuckets.toNat) = 1 := by
  decide +kernel

end Dirigent.Autoscaling
