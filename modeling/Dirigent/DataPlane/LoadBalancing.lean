import Dirigent.DataPlane.Calls

/-!
# Load-balancing policies

The two policies of `runLoadBalancingAlgorithm` that read the number of requests per endpoint. A
result `none` is a Go panic: an index out of range or an empty range to draw from.

**Sampling.** Two draws give each ordered pair of distinct positions once
(`generateTwoUniformRandomEndpoints_bijOn`). Of the two endpoints the one with *more* requests is
returned (`bestOfTwoRandoms_iff`).

**Counting.** Picks of a least processed endpoint keep the counts together
(`leastProcessedLoadBalancing_balanced`).
-/

namespace Dirigent.DataPlane

/-! ## Request counts -/

/-- `AtomicMapCounter` -/
abbrev AtomicMapCounter (α : Type) := α → Option Int64

namespace AtomicMapCounter

variable {α : Type}

def get (c : AtomicMapCounter α) (key : α) : Int64 := (c key).getD 0

variable [DecidableEq α]

def atomicAdd (c : AtomicMapCounter α) (key : α) (value : Int64) : AtomicMapCounter α :=
  Function.update c key (some ((c key).elim value (· + value)))

def atomicIncrement (c : AtomicMapCounter α) (key : α) : AtomicMapCounter α := c.atomicAdd key 1

theorem get_atomicIncrement (c : AtomicMapCounter α) (key a : α) :
    (c.atomicIncrement key).get a = if a = key then c.get key + 1 else c.get a := by
  simp only [get, atomicIncrement, atomicAdd, Function.update_apply]
  by_cases h : a = key
  · cases hc : c key <;> simp [h]
  · simp [h]

end AtomicMapCounter

/-! ## The policies -/

section

variable {α : Type}

/-- `rand.Intn(n)` -/
def intn (r n : ℕ) : Option ℕ := if n = 0 then none else some (r % n)

/-- The loop of `leastProcessedLoadBalancing`, with `minEndpoint` and `minValue`. -/
def leastOf (count : AtomicMapCounter α) : α × Int64 → List α → α × Int64 :=
  List.foldl fun least endpoint =>
    if count.get endpoint < least.2 then (endpoint, count.get endpoint) else least

def leastProcessedLoadBalancing (count : AtomicMapCounter α) (endpoints : List α) : Option α := do
  let minEndpoint ← endpoints[0]?
  return (leastOf count (minEndpoint, count.get minEndpoint) endpoints).1

/-- The positions for the draws `r₁` and `r₂`. -/
def twoIndices (r : ℕ × ℕ) : ℕ × ℕ := (r.1, if r.1 ≤ r.2 then r.2 + 1 else r.2)

def generateTwoUniformRandomEndpoints (endpoints : List α) (r₁ r₂ : ℕ) : Option (α × α) := do
  let r₁ ← intn r₁ endpoints.length
  let r₂ ← intn r₂ (endpoints.length - 1)
  let i := twoIndices (r₁, r₂)
  return (← endpoints[i.1]?, ← endpoints[i.2]?)

def bestOfTwoRandoms (count : AtomicMapCounter α) (endpoints : List α) (r₁ r₂ : ℕ) : Option α :=
  if endpoints.length = 1 then endpoints[0]?
  else do
    let (endpoint₁, endpoint₂) ← generateTwoUniformRandomEndpoints endpoints r₁ r₂
    return if count.get endpoint₁ > count.get endpoint₂ then endpoint₁ else endpoint₂

end

/-! ## Two random endpoints -/

section

variable {α : Type} {endpoints : List α} {r₁ r₂ : ℕ}

theorem generateTwoUniformRandomEndpoints_eq (h₁ : r₁ < endpoints.length)
    (h₂ : r₂ < endpoints.length - 1) :
    ∃ h : (twoIndices (r₁, r₂)).2 < endpoints.length,
      generateTwoUniformRandomEndpoints endpoints r₁ r₂ =
        some (endpoints[r₁], endpoints[(twoIndices (r₁, r₂)).2]) := by
  have h : (twoIndices (r₁, r₂)).2 < endpoints.length := by
    simp only [twoIndices]
    split <;> omega
  refine ⟨h, ?_⟩
  have hn : endpoints.length ≠ 0 := by omega
  have hn' : endpoints.length - 1 ≠ 0 := by omega
  simp only [twoIndices] at h ⊢
  simp [generateTwoUniformRandomEndpoints, intn, hn, hn', Nat.mod_eq_of_lt h₁, Nat.mod_eq_of_lt h₂,
    List.getElem?_eq_getElem h, twoIndices, h₁]

/-- **The two draws give every ordered pair of distinct positions exactly once**, and no other. -/
theorem generateTwoUniformRandomEndpoints_bijOn (endpoints : List α) :
    Set.BijOn twoIndices {r | r.1 < endpoints.length ∧ r.2 < endpoints.length - 1}
      {i | i.1 < endpoints.length ∧ i.2 < endpoints.length ∧ i.1 ≠ i.2} ∧
    (∀ i : ℕ × ℕ, i.1 < endpoints.length → i.2 < endpoints.length → i.1 ≠ i.2 →
      ((Finset.range endpoints.length ×ˢ Finset.range (endpoints.length - 1)).filter
        fun r => twoIndices r = i).card = 1) ∧
    ∀ r₁ r₂, r₁ < endpoints.length → r₂ < endpoints.length - 1 →
      ∃ e₁ e₂, endpoints[(twoIndices (r₁, r₂)).1]? = some e₁ ∧
        endpoints[(twoIndices (r₁, r₂)).2]? = some e₂ ∧
        generateTwoUniformRandomEndpoints endpoints r₁ r₂ = some (e₁, e₂) := by
  have hbij : Set.BijOn twoIndices {r | r.1 < endpoints.length ∧ r.2 < endpoints.length - 1}
      {i | i.1 < endpoints.length ∧ i.2 < endpoints.length ∧ i.1 ≠ i.2} := by
    refine ⟨?_, ?_, ?_⟩
    · rintro ⟨r₁, r₂⟩ ⟨h₁, h₂⟩
      simp only [twoIndices, Set.mem_ofPred_eq] at h₁ h₂ ⊢
      split <;> omega
    · rintro ⟨r₁, r₂⟩ - ⟨r₁', r₂'⟩ - heq
      simp only [twoIndices, Prod.mk.injEq] at heq ⊢
      obtain ⟨rfl, heq⟩ := heq
      refine ⟨rfl, ?_⟩
      split at heq <;> split at heq <;> omega
    · -- the second position moves down if it is past the first
      rintro ⟨i, j⟩ ⟨hi, hj, hne⟩
      refine ⟨(i, if i < j then j - 1 else j), ?_, ?_⟩
      · simp only [Set.mem_ofPred_eq] at hi hj hne ⊢
        split <;> omega
      · simp only [twoIndices, Prod.mk.injEq, true_and] at hi hj hne ⊢
        split <;> split <;> omega
  refine ⟨hbij, ?_, ?_⟩
  · intro i hi hj hne
    obtain ⟨r, hr, heq⟩ := hbij.surjOn ⟨hi, hj, hne⟩
    refine Finset.card_eq_one.2 ⟨r, Finset.eq_singleton_iff_unique_mem.2 ⟨?_, fun r' hr' => ?_⟩⟩
    · simpa [heq] using hr
    · simp only [Finset.mem_filter, Finset.mem_product, Finset.mem_range] at hr'
      exact hbij.injOn hr'.1 hr (hr'.2.trans heq.symm)
  · intro r₁ r₂ h₁ h₂
    obtain ⟨h, heq⟩ := generateTwoUniformRandomEndpoints_eq h₁ h₂
    exact ⟨_, _, List.getElem?_eq_getElem h₁, List.getElem?_eq_getElem h, heq⟩

/-- The result is one of two distinct sampled endpoints, the one with fewer requests, and some other
endpoint has at least as many. -/
def PicksLessLoaded (count : AtomicMapCounter α) (endpoints : List α) (r₁ r₂ : ℕ) : Prop :=
  ∃ e₁ e₂ e, generateTwoUniformRandomEndpoints endpoints r₁ r₂ = some (e₁, e₂) ∧ e₁ ≠ e₂ ∧
    bestOfTwoRandoms count endpoints r₁ r₂ = some e ∧ (e = e₁ ∨ e = e₂) ∧
    count.get e ≤ count.get e₁ ∧ count.get e ≤ count.get e₂ ∧
    ∃ e' ∈ endpoints, e' ≠ e ∧ count.get e ≤ count.get e'

/-- **The less loaded of the two is picked** exactly if both have the same number of requests. -/
theorem bestOfTwoRandoms_iff {count : AtomicMapCounter α} (hnodup : endpoints.Nodup)
    (h₁ : r₁ < endpoints.length) (h₂ : r₂ < endpoints.length - 1) :
    PicksLessLoaded count endpoints r₁ r₂ ↔
      ∃ e₁ e₂, generateTwoUniformRandomEndpoints endpoints r₁ r₂ = some (e₁, e₂) ∧
        count.get e₁ = count.get e₂ := by
  obtain ⟨h, heq⟩ := generateTwoUniformRandomEndpoints_eq h₁ h₂
  have hne : endpoints[r₁] ≠ endpoints[(twoIndices (r₁, r₂)).2] := by
    rw [Ne, hnodup.getElem_inj_iff]
    simp only [twoIndices]
    split <;> omega
  have hbest : bestOfTwoRandoms count endpoints r₁ r₂ =
      some (if count.get endpoints[r₁] > count.get endpoints[(twoIndices (r₁, r₂)).2]
        then endpoints[r₁] else endpoints[(twoIndices (r₁, r₂)).2]) := by
    rw [bestOfTwoRandoms, if_neg (by omega), heq]
    rfl
  constructor
  · rintro ⟨e₁, e₂, e, hgen, -, he, -, hle₁, hle₂, -⟩
    refine ⟨e₁, e₂, hgen, ?_⟩
    rw [heq, Option.some.injEq, Prod.mk.injEq] at hgen
    obtain ⟨rfl, rfl⟩ := hgen
    rw [hbest, Option.some.injEq] at he
    subst he
    split at hle₁
    · next hlt => exact absurd hlt (Int64.not_lt.2 (by simpa [hlt] using hle₂))
    · next hlt => exact Int64.le_antisymm (Int64.not_lt.1 hlt) hle₁
  · rintro ⟨e₁, e₂, hgen, hcount⟩
    obtain ⟨rfl, rfl⟩ := Prod.mk.injEq .. ▸ Option.some.inj (heq.symm.trans hgen)
    refine ⟨_, _, _, hgen, hne, hbest, ?_⟩
    have hle := Int64.le_refl (count.get endpoints[(twoIndices (r₁, r₂)).2])
    rw [if_neg (by simp [hcount]), hcount]
    exact ⟨.inr rfl, hle, hle, _, List.getElem_mem h₁, hne, by rwa [hcount]⟩

/-- Of three endpoints the two with five requests are drawn. -/
theorem bestOfTwoRandoms_equallyBusy :
    PicksLessLoaded (fun e => if e = 2 then some 7 else some 5) [0, 1, 2] 0 0 :=
  (bestOfTwoRandoms_iff (by decide) (by decide) (by decide)).2 ⟨0, 1, rfl, rfl⟩

/-- Of an endpoint with five requests and an unused one, the first is picked. -/
theorem bestOfTwoRandoms_busier :
    generateTwoUniformRandomEndpoints [0, 1] 0 0 = some (0, 1) ∧
    bestOfTwoRandoms (fun e => if e = 0 then some 5 else none) [0, 1] 0 0 = some 0 ∧
    ¬ PicksLessLoaded (fun e => if e = 0 then some 5 else none) [0, 1] 0 0 := by
  refine ⟨rfl, rfl, ?_⟩
  rintro ⟨e₁, e₂, e, hgen, -, he, -, -, hle, -⟩
  cases hgen
  cases he
  exact absurd hle (by decide)

end

/-! ## The least processed endpoint -/

section

variable {α : Type} {count : AtomicMapCounter α} {endpoints : List α} {e : α}

theorem leastOf_spec (count : AtomicMapCounter α) (e : α) (endpoints : List α) :
    (leastOf count (e, count.get e) endpoints).1 ∈ e :: endpoints ∧
    ∀ e' ∈ e :: endpoints,
      (count.get (leastOf count (e, count.get e) endpoints).1).toInt ≤ (count.get e').toInt := by
  induction endpoints generalizing e with
  | nil => simp [leastOf]
  | cons a endpoints ih =>
    by_cases ha : count.get a < count.get e
    · obtain ⟨hmem, hle⟩ := ih a
      have hcons : leastOf count (e, count.get e) (a :: endpoints) =
          leastOf count (a, count.get a) endpoints := by simp [leastOf, ha]
      rw [hcons]
      refine ⟨List.mem_cons_of_mem _ hmem, fun e' he' => ?_⟩
      rcases List.mem_cons.1 he' with rfl | he'
      · exact (hle a List.mem_cons_self).trans (Int64.lt_iff_toInt_lt.1 ha).le
      · exact hle e' he'
    · obtain ⟨hmem, hle⟩ := ih e
      have hcons : leastOf count (e, count.get e) (a :: endpoints) =
          leastOf count (e, count.get e) endpoints := by simp [leastOf, ha]
      rw [hcons]
      refine ⟨by simp only [List.mem_cons] at hmem ⊢; tauto, fun e' he' => ?_⟩
      have he := hle e List.mem_cons_self
      have ha := Int64.le_iff_toInt_le.1 (Int64.not_lt.1 ha)
      simp only [List.mem_cons] at he' hle
      rcases he' with rfl | rfl | he'
      exacts [he, he.trans ha, hle e' (.inr he')]

theorem leastProcessedLoadBalancing_spec
    (h : leastProcessedLoadBalancing count endpoints = some e) :
    e ∈ endpoints ∧ ∀ e' ∈ endpoints, (count.get e).toInt ≤ (count.get e').toInt := by
  cases endpoints with
  | nil => cases h
  | cons a endpoints =>
    obtain rfl := Option.some.inj h
    have hspec := leastOf_spec count a (a :: endpoints)
    simpa using hspec

variable [DecidableEq α]

/-- A request to the least processed endpoint. -/
def pickLeastProcessed (endpoints : List α) (count : AtomicMapCounter α) : AtomicMapCounter α :=
  (leastProcessedLoadBalancing count endpoints).elim count count.atomicIncrement

/-- No count is more than `d` above another one. -/
def SpreadLe (endpoints : List α) (d : ℤ) (count : AtomicMapCounter α) : Prop :=
  ∀ e ∈ endpoints, ∀ e' ∈ endpoints, (count.get e).toInt ≤ (count.get e').toInt + d

theorem toInt_add_one {x y : Int64} (h : x.toInt ≤ y.toInt) (hy : y < Int64.maxValue) :
    (x + 1).toInt = x.toInt + 1 := by
  have hmax := Int64.lt_iff_toInt_lt.1 hy
  have hmin := x.le_toInt
  rw [Int64.toInt_maxValue] at hmax
  rw [Int64.toInt_add, Int64.toInt_one, Int.bmod_eq_of_le] <;> omega

/-- **One pick** does not spread the counts. -/
theorem SpreadLe.pick {d : ℤ} (h : SpreadLe endpoints d count) (hd : 1 ≤ d)
    (hroom : ∃ e ∈ endpoints, count.get e < Int64.maxValue) :
    SpreadLe endpoints d (pickLeastProcessed endpoints count) := by
  cases hleast : leastProcessedLoadBalancing count endpoints with
  | none => simpa [pickLeastProcessed, hleast] using h
  | some least =>
    obtain ⟨hmem, hle⟩ := leastProcessedLoadBalancing_spec hleast
    obtain ⟨a, ha, hroom⟩ := hroom
    have hadd := toInt_add_one (hle a ha) hroom
    intro e he e' he'
    have hspread := h e he e' he'
    have hle := hle e' he'
    simp only [pickLeastProcessed, hleast, Option.elim_some, AtomicMapCounter.get_atomicIncrement]
    -- only the least count has grown
    by_cases hl : e = least <;> by_cases hl' : e' = least <;> simp only [hl, hl', if_true, if_false]
    · omega
    · omega
    · subst hl'
      omega
    · exact hspread

/-- **The counts stay together**: whatever the number of picks, as long as not all counts are at the
largest `int64`, they differ by one at most if they were equal, and otherwise by what they did. -/
theorem leastProcessedLoadBalancing_balanced {picks : ℕ}
    (hroom : ∀ k < picks, ∃ e ∈ endpoints,
      ((pickLeastProcessed endpoints)^[k] count).get e < Int64.maxValue) :
    ((∀ e ∈ endpoints, ∀ e' ∈ endpoints, count.get e = count.get e') →
      SpreadLe endpoints 1 ((pickLeastProcessed endpoints)^[picks] count)) ∧
    ∀ d, SpreadLe endpoints d count →
      SpreadLe endpoints (max 1 d) ((pickLeastProcessed endpoints)^[picks] count) := by
  have hkeep : ∀ d, 1 ≤ d → SpreadLe endpoints d count →
      SpreadLe endpoints d ((pickLeastProcessed endpoints)^[picks] count) := by
    intro d hd h
    induction picks with
    | zero => exact h
    | succ picks ih =>
      rw [Function.iterate_succ_apply']
      refine (ih fun k hk => hroom k (Nat.lt_succ_of_lt hk)).pick hd (hroom picks ?_)
      exact Nat.lt_succ_self picks
  refine ⟨fun h => hkeep 1 le_rfl fun e he e' he' => ?_, fun d h => ?_⟩
  · rw [h e he e' he']
    omega
  · refine hkeep _ (le_max_left 1 d) fun e he e' he' => ?_
    have hle := h e he e' he'
    have hmax := le_max_right 1 d
    omega

theorem leastProcessedLoadBalancing_balanced_two :
    SpreadLe [0, 1] 1 ((pickLeastProcessed [0, 1])^[3] fun _ => none) :=
  (leastProcessedLoadBalancing_balanced (by decide)).1 (by decide)

end

end Dirigent.DataPlane
