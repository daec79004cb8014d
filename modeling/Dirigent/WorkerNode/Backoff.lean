import Mathlib.Algebra.Order.Archimedean.Basic
import Mathlib.Tactic

/-!
# The back-off of the readiness probe

`SendReadinessProbe` asks a sandbox whether it is up, and sleeps between two attempts for as long as
`ExponentialBackoff.Next` says. A negative answer of `Next` ends the attempts.

The arithmetic is exact: the numbers are those of an ordered field, and `RetryNumber` is a natural
number.

- **What `Next` returns** (`nthResult_succ`). The first call returns the interval. Each further call
  returns the next power but one, unless the last step to it is larger than `MaxDifference`.
- **The attempts end** (`backoff_ends`). The steps grow, and pass any bound in the end.
- **The first step** (`stepsBounded_iff`). The first two results are two powers apart, and what is
  compared with `MaxDifference` is only the second half of the way between them.
-/

namespace Dirigent.WorkerNode

variable {K : Type*} [Field K] [LinearOrder K]

structure ExponentialBackoff (K : Type*) where
  interval : K
  exponentialRate : K
  retryNumber : ℕ := 0
  maxDifference : K

namespace ExponentialBackoff

def calculate (eb : ExponentialBackoff K) (retry : ℕ) : K :=
  eb.interval * eb.exponentialRate ^ retry

def next (eb : ExponentialBackoff K) : K × ExponentialBackoff K :=
  if eb.retryNumber = 0 then
    (eb.calculate 0, { eb with retryNumber := eb.retryNumber + 1 })
  else
    let oldValue := eb.calculate eb.retryNumber
    let newValue := eb.calculate (eb.retryNumber + 1)
    (if eb.maxDifference < |newValue - oldValue| then -1 else newValue,
      { eb with retryNumber := eb.retryNumber + 1 })

/-- A fresh back-off. -/
def fresh (interval exponentialRate maxDifference : K) : ExponentialBackoff K :=
  { interval, exponentialRate, maxDifference }

/-- What the call of `Next` with this number returns, counted from `0`. -/
def nthResult (eb : ExponentialBackoff K) (n : ℕ) : K :=
  ((fun eb => eb.next.2)^[n] eb).next.1

/-- The retry loop of `SendReadinessProbe` for at most `fuel` attempts: how many it has made, and
whether the last one has passed. -/
def sendReadinessProbe (answers : ℕ → Bool) : ℕ → ℕ → ExponentialBackoff K → Option (ℕ × Bool)
  | 0, _, _ => none
  | fuel + 1, tries, eb =>
    if answers tries then some (tries + 1, true)
    else if eb.next.1 < 0 then some (tries + 1, false)
    else sendReadinessProbe answers fuel (tries + 1) eb.next.2

/-! ## What `Next` returns -/

theorem iterate_next (eb : ExponentialBackoff K) (n : ℕ) :
    (fun eb => eb.next.2)^[n] eb = { eb with retryNumber := eb.retryNumber + n } := by
  induction n with
  | zero => rfl
  | succ n ih =>
    rw [Function.iterate_succ_apply', ih, next]
    split <;> rfl

section

variable {I r M : K}

theorem nthResult_zero : (fresh I r M).nthResult 0 = I := by
  simp [nthResult, next, fresh, calculate]

variable [IsStrictOrderedRing K] (hI : 0 < I) (hr : 1 < r)

include hI hr

theorem nthResult_succ (n : ℕ) : (fresh I r M).nthResult (n + 1) =
    if M < I * (r - 1) * r ^ (n + 1) then -1 else I * r ^ (n + 2) := by
  have hstep : I * r ^ (n + 2) - I * r ^ (n + 1) = I * (r - 1) * r ^ (n + 1) := by ring
  have hr' : 0 ≤ r - 1 := by linarith
  rw [nthResult, iterate_next, next, fresh]
  simp [calculate, hstep, abs_of_nonneg (show 0 ≤ I * (r - 1) * r ^ (n + 1) by positivity)]

/-- From some call on the steps are too large, and before it they are not. -/
theorem exists_threshold [Archimedean K] : ∃ n, ∀ m, M < I * (r - 1) * r ^ (m + 1) ↔ n ≤ m := by
  have hstep : 0 < I * (r - 1) := mul_pos hI (by linarith)
  have hmono : Monotone fun m => I * (r - 1) * r ^ (m + 1) := fun m m' h =>
    mul_le_mul_of_nonneg_left (pow_le_pow_right₀ hr.le (by omega)) hstep.le
  have hex : ∃ m, M < I * (r - 1) * r ^ (m + 1) := by
    obtain ⟨k, hk⟩ := pow_unbounded_of_one_lt (M / (I * (r - 1))) hr
    refine ⟨k, ((div_lt_iff₀' hstep).1 hk).trans_le ?_⟩
    exact mul_le_mul_of_nonneg_left (pow_le_pow_right₀ hr.le k.le_succ) hstep.le
  exact ⟨Nat.find hex, fun m => ⟨Nat.find_min' hex, fun h =>
    (Nat.find_spec hex).trans_le (hmono h)⟩⟩

end

/-! ## The attempts end -/

/-- Against a target that never answers, the loop goes on while `Next` does. -/
theorem sendReadinessProbe_of_results {eb : ExponentialBackoff K} {n : ℕ}
    (hpos : ∀ m < n, ¬ eb.nthResult m < 0) (hneg : eb.nthResult n < 0) (tries : ℕ) :
    sendReadinessProbe (fun _ => false) (n + 1) tries eb = some (tries + n + 1, false) := by
  induction n generalizing eb tries with
  | zero =>
    have hneg : eb.next.1 < 0 := hneg
    simp [sendReadinessProbe, hneg]
  | succ n ih =>
    have hfirst : ¬ eb.next.1 < 0 := hpos 0 n.succ_pos
    have hlater : ∀ m < n, ¬ eb.next.2.nthResult m < 0 := fun m hm => hpos (m + 1) (by omega)
    have hrest := ih hlater hneg (tries + 1)
    simpa [sendReadinessProbe, hfirst, Nat.add_assoc, Nat.add_comm 1] using hrest

/-- **The back-off ends.** The results of `Next` grow until the first `-1`, which comes, and all
further ones are `-1`. So the retry loop ends for a target that never answers. -/
theorem backoff_ends [IsStrictOrderedRing K] [Archimedean K] (I r M : K) (hI : 0 < I) (hr : 1 < r) :
    ∃ n, (∀ m < n, 0 < (fresh I r M).nthResult m) ∧
      (∀ m m', m < m' → m' < n → (fresh I r M).nthResult m < (fresh I r M).nthResult m') ∧
      (∀ m, n ≤ m → (fresh I r M).nthResult m = -1) ∧
      sendReadinessProbe (fun _ => false) (n + 1) 0 (fresh I r M) = some (n + 1, false) := by
  have hr₀ : 0 < r := one_pos.trans hr
  obtain ⟨n, hn⟩ := exists_threshold (M := M) hI hr
  have hsucc : ∀ m, (fresh I r M).nthResult (m + 1) = if n ≤ m then -1 else I * r ^ (m + 2) :=
    fun m => by
    simp only [nthResult_succ hI hr m, hn m]
  have hlast : ∀ m, n + 1 ≤ m → (fresh I r M).nthResult m = -1 := by
    intro m hm
    obtain ⟨k, rfl⟩ := Nat.exists_eq_add_of_lt hm
    rw [hsucc, if_pos (by omega)]
  have hbefore : ∀ m < n + 1, 0 < (fresh I r M).nthResult m := by
    rintro (_ | m) hm
    · rwa [nthResult_zero]
    · rw [hsucc, if_neg (by omega)]
      positivity
  refine ⟨n + 1, hbefore, ?_, hlast, ?_⟩
  · rintro m (_ | m') hlt hm'
    · omega
    rw [hsucc m', if_neg (by omega)]
    cases m with
    | zero =>
      rw [nthResult_zero]
      exact lt_mul_of_one_lt_right hI (one_lt_pow₀ hr (by omega))
    | succ m =>
      rw [hsucc m, if_neg (by omega)]
      exact mul_lt_mul_of_pos_left (pow_lt_pow_right₀ hr (by omega)) hI
  · have hneg : (fresh I r M).nthResult (n + 1) < 0 := by simp [hlast]
    simpa using sendReadinessProbe_of_results (fun m hm => not_lt.2 (hbefore m hm).le) hneg 0

theorem backoff_ends_probe : ∃ n, sendReadinessProbe (fun _ => false) (n + 1) 0
    (fresh (1 / 100) (27 / 20) (2 : ℚ)) = some (n + 1, false) := by
  obtain ⟨n, -, -, -, h⟩ := backoff_ends (1 / 100 : ℚ) (27 / 20) 2 (by norm_num) (by norm_num)
  exact ⟨n, h⟩

/-! ## The first step -/

/-- Two results after one another, if neither is `-1`, are at most `M` apart. -/
def StepsBounded (I r M : K) : Prop :=
  ∀ n, 0 ≤ (fresh I r M).nthResult n → 0 ≤ (fresh I r M).nthResult (n + 1) →
    |(fresh I r M).nthResult (n + 1) - (fresh I r M).nthResult n| ≤ M

/-- **When the steps are bounded**: the way from the first result to the second is short enough, or
the second one is `-1`. -/
theorem stepsBounded_iff [IsStrictOrderedRing K] (I r M : K) (hI : 0 < I) (hr : 1 < r) :
    StepsBounded I r M ↔ I * (r ^ 2 - 1) ≤ M ∨ M < I * (r - 1) * r := by
  have hr₀ : 0 < r := one_pos.trans hr
  have hone : |I * r ^ 2 - I| = I * (r ^ 2 - 1) := by
    rw [← mul_sub_one, abs_of_nonneg (mul_nonneg hI.le (sub_nonneg.2 (one_le_pow₀ hr.le)))]
  constructor
  · intro h
    by_contra! hno
    have h₀ := h 0 (by rw [nthResult_zero]; exact hI.le)
    rw [nthResult_succ hI hr, if_neg (by simpa using hno.2), nthResult_zero,
      Nat.zero_add, hone] at h₀
    exact absurd (h₀ (by positivity)) (not_le.2 hno.1)
  · intro h n h₀ h₁
    rw [nthResult_succ hI hr] at h₁ ⊢
    split_ifs at h₁ ⊢ with hlarge
    · linarith
    cases n with
    | zero =>
      rw [nthResult_zero, Nat.zero_add, hone]
      exact h.resolve_right (by simpa using hlarge)
    | succ n =>
      rw [nthResult_succ hI hr] at h₀ ⊢
      split_ifs at h₀ ⊢ with hbefore
      · linarith
      have hstep : I * r ^ (n + 1 + 2) - I * r ^ (n + 2) = I * (r - 1) * r ^ (n + 1 + 1) := by ring
      have hr' : 0 ≤ r - 1 := by linarith
      rw [hstep, abs_of_nonneg (by positivity)]
      exact not_lt.1 hlarge

theorem stepsBounded_probe : StepsBounded (1 / 100 : ℚ) (27 / 20) 2 :=
  (stepsBounded_iff _ _ _ (by norm_num) (by norm_num)).2 (.inl (by norm_num))

/-- The first two results are `1` and `4`. -/
theorem not_stepsBounded : ¬ ∀ I r M : ℚ, 0 < I → 1 < r → 0 ≤ M → StepsBounded I r M := by
  intro h
  have h₀ := h 1 2 2 (by norm_num) (by norm_num) (by norm_num) 0
  norm_num [nthResult, next, calculate, fresh] at h₀

end ExponentialBackoff

end Dirigent.WorkerNode
