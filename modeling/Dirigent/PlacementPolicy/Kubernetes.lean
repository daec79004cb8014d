import Dirigent.PlacementPolicy.RoundRobin
import Mathlib.Data.List.AList
import Mathlib.Data.List.Permutation
import Mathlib.Algebra.Order.Floor.Ring
import Mathlib.Data.Rat.Floor

/-!
# Kubernetes placement

`KubernetesPolicy.Place` filters the nodes into a new storage, adds up two scores for each node that
is left, and takes a node with the highest sum.

- **Iterations** (`Iterations`). Go gives the entries of a map in any order, anew in each loop;
  every loop has its own `Shuffle` here, and `rand.Intn` its own numbers.
- **Filter** (`filterMachines`). The new storage is a nil interface: `Set` on it faults, and where
  no node passes the filter, `GetMap` on it does (`place_faults`).
- **Scores** (`prioritizeNodes`). Both score functions see exactly the keys `cpu` and `memory`, in
  some order, so their values do not depend on it (`scoreFitLeastAllocated_eq`,
  `scoreBalancedAllocation_eq`).
- **Selection** (`selectOneMachine`). The scan starts at the score `0` without a node. Every score
  is at least `50`, so the first node replaces it, whatever is drawn (`Selected`).
- **Usage** (`getRequestedResources`). The usage of a node comes as a percentage and is multiplied
  with the capacity without a division by `100`.

Results: `place_faults`, `selectOneMachine_best`, `usage_accounting`.
-/

namespace Dirigent.PlacementPolicy

/-! ## Resource maps -/

def rmCpuKey : String := "cpu"

def rmMemoryKey : String := "memory"

/-- `ResourceMap` -/
structure ResourceMap where
  resources : AList fun _ : String => UInt64 := ∅

namespace ResourceMap

def getCPUCores (r : ResourceMap) : UInt64 := (r.resources.lookup rmCpuKey).getD 0

def getMemory (r : ResourceMap) : UInt64 := (r.resources.lookup rmMemoryKey).getD 0

def setCPUCores (r : ResourceMap) (v : UInt64) : ResourceMap := ⟨r.resources.insert rmCpuKey v⟩

def setMemory (r : ResourceMap) (v : UInt64) : ResourceMap := ⟨r.resources.insert rmMemoryKey v⟩

def getByKey (r : ResourceMap) (key : String) : Except Fault UInt64 :=
  match r.resources.lookup key with
  | some v => pure v
  | none => throw (.fatal "There is no resource with the given key.")

end ResourceMap

/-- `CreateResourceMap` -/
def createResourceMap (cpu memory : UInt64) : ResourceMap :=
  (({} : ResourceMap).setCPUCores cpu).setMemory memory

/-- `SumResources` -/
def sumResources (a b : ResourceMap) : ResourceMap :=
  createResourceMap (a.getCPUCores + b.getCPUCores) (a.getMemory + b.getMemory)

/-! ## Iterations -/

/-- The order in which one loop sees the entries of a map. -/
structure Shuffle (α : Type) where
  order : List α → List α
  perm : ∀ xs, (order xs).Perm xs

/-- The entries as they are. -/
def Shuffle.id (α : Type) : Shuffle α := ⟨fun xs => xs, List.Perm.refl⟩

/-- An entry of the node storage. -/
abbrev Entry := String × WorkerNode

/-- The orders of the loops of one call, and the numbers that are drawn. -/
structure Iterations where
  filter : Shuffle Entry
  /-- The loop over the nodes, for each score function. -/
  prioritize : String → Shuffle Entry
  /-- `ResourceKeys`, for each score function and node. -/
  resourceKeys : String → String → Shuffle String
  select : Shuffle Entry
  draws : ℕ → ℕ

/-- A value of the interface `SyncStructure`: nil, or the entries of a storage. -/
abbrev SyncStructure := Option (List Entry)

/-- `GetMap` -/
def getMap (storage : SyncStructure) : Except Fault (List Entry) :=
  match storage with
  | some entries => pure entries
  | none => throw .nilDereference

/-- `Set` -/
def set (storage : SyncStructure) (entry : Entry) : Except Fault SyncStructure := do
  let entries ← getMap storage
  pure (some (entry :: entries.filter (·.1 ≠ entry.1)))

/-! ## The score functions -/

/-- `leastRequestedScore` -/
def leastRequestedScore (requested capacity : UInt64) : UInt64 :=
  if capacity = 0 then 0
  else if requested > capacity then 0
  else (capacity - requested) * 100 / capacity

/-- The weights in `ScoreFitLeastAllocated`; a key that is missing has weight `0`. -/
def weights (key : String) : UInt64 := if key = rmCpuKey ∨ key = rmMemoryKey then 1 else 0

/-- The loop of `ScoreFitLeastAllocated`: the score and the weights, added up. -/
def fitLoop (installed requested : ResourceMap) :
    List String → UInt64 → UInt64 → Except Fault (UInt64 × UInt64)
  | [], nodeScore, weightSum => pure (nodeScore, weightSum)
  | key :: keys, nodeScore, weightSum => do
    let req ← requested.getByKey key
    let av ← installed.getByKey key
    fitLoop installed requested keys (nodeScore + leastRequestedScore req av * weights key)
      (weightSum + weights key)

/-- `ScoreFitLeastAllocated` -/
def scoreFitLeastAllocated (keys : Shuffle String) (installed requested : ResourceMap) :
    Except Fault UInt64 := do
  let (nodeScore, weightSum) ← fitLoop installed requested (keys.order installed.resources.keys) 0 0
  pure (if weightSum = 0 then 0 else nodeScore / weightSum)

/-- The loop of `ScoreBalancedAllocation`: the fraction of each resource. -/
def fractionLoop (installed requested : ResourceMap) : List String → Except Fault (List ℚ)
  | [] => pure []
  | key :: keys => do
    let req ← requested.getByKey key
    let av ← installed.getByKey key
    let fraction : ℚ := req.toNat / av.toNat
    let fractions ← fractionLoop installed requested keys
    pure ((if fraction > 1 then 1 else fraction) :: fractions)

/-- The deviation of the fractions, with a function for the square root. -/
def deviation (sqrt : ℚ → ℚ) (fractions : List ℚ) : ℚ :=
  match fractions with
  | [] => 0
  | [_] => 0
  | [first, second] => |(first - second) / 2|
  | fractions =>
    let mean := fractions.sum / fractions.length
    sqrt
      ((fractions.map fun fraction => (fraction - mean) * (fraction - mean)).sum / fractions.length)

/-- `ScoreBalancedAllocation`, for capacities that are not zero and over exact arithmetic. -/
def scoreBalancedAllocation (sqrt : ℚ → ℚ) (keys : Shuffle String)
    (installed requested : ResourceMap) : Except Fault UInt64 := do
  let fractions ← fractionLoop installed requested (keys.order installed.resources.keys)
  pure (UInt64.ofNat ⌊(1 - deviation sqrt fractions) * 100⌋.toNat)

/-- A score function with its name. -/
structure ScoringAlgorithm where
  name : String
  score : Shuffle String → ResourceMap → ResourceMap → Except Fault UInt64

/-- `CreateScoringPipeline` -/
def createScoringPipeline (sqrt : ℚ → ℚ) : List ScoringAlgorithm :=
  [⟨"NodeResourcesFit", scoreFitLeastAllocated⟩,
    ⟨"NodeResourcesBalancedAllocation", scoreBalancedAllocation sqrt⟩]

/-! ## The stages -/

/-- `filterMachines` on the entries of the storage. -/
def filterMachines (it : Iterations) (storage : List Entry) (resourceMap : ResourceMap) :
    Except Fault SyncStructure :=
  (it.filter.order storage).foldlM (fun resultingNodes (key, value) =>
    let isMemoryBigEnough := decide (value.memory ≥ resourceMap.getMemory)
    let isCpuBigEnough := decide (value.cpuCores ≥ resourceMap.getCPUCores)
    if !isMemoryBigEnough || !isCpuBigEnough || !value.schedulability then pure resultingNodes
    else set resultingNodes (key, value)) none

/-- `getInstalledResources` -/
def getInstalledResources (machine : WorkerNode) : ResourceMap :=
  createResourceMap machine.cpuCores machine.memory

/-- `currentUsage` in `getRequestedResources`. -/
def currentUsage (machine : WorkerNode) : ResourceMap :=
  createResourceMap (machine.cpuUsage * machine.cpuCores) (machine.memoryUsage * machine.memory)

/-- `getRequestedResources` -/
def getRequestedResources (machine : WorkerNode) (request : ResourceMap) : ResourceMap :=
  sumResources (currentUsage machine) request

/-- The loop of `prioritizeNodes` over the nodes, for one score function. -/
def addScores (it : Iterations) (request : ResourceMap) (alg : ScoringAlgorithm) :
    List Entry → (String → UInt64) → Except Fault (String → UInt64)
  | [], scores => pure scores
  | (key, machine) :: entries, scores => do
    let sc ← alg.score (it.resourceKeys alg.name key) (getInstalledResources machine)
      (getRequestedResources machine request)
    addScores it request alg entries (Function.update scores key (scores key + sc))

/-- `prioritizeNodes` -/
def prioritizeNodes (sqrt : ℚ → ℚ) (it : Iterations) (storage : SyncStructure)
    (request : ResourceMap) : Except Fault (String → UInt64) :=
  (createScoringPipeline sqrt).foldlM (fun scores alg => do
    let entries ← getMap storage
    addScores it request alg ((it.prioritize alg.name).order entries) scores) fun _ => 0

/-- The state of the loop of `selectOneMachine`, with the number of draws so far. -/
structure Selection where
  selected : Option WorkerNode := none
  maxScore : UInt64 := 0
  cntOfMaxScore : ℕ := 1
  drawn : ℕ := 0

/-- One round of the loop; `rand.Intn n` gives a number below `n`. -/
def Selection.next (draws : ℕ → ℕ) (scores : String → UInt64) (sel : Selection) (entry : Entry) :
    Selection :=
  if scores entry.1 > sel.maxScore then
    { sel with selected := some entry.2, maxScore := scores entry.1, cntOfMaxScore := 1 }
  else if scores entry.1 = sel.maxScore then
    { sel with
      cntOfMaxScore := sel.cntOfMaxScore + 1
      drawn := sel.drawn + 1
      selected :=
        if draws sel.drawn % (sel.cntOfMaxScore + 1) = 0 then some entry.2 else sel.selected }
  else sel

/-- `selectOneMachine` -/
def selectOneMachine (it : Iterations) (storage : SyncStructure) (scores : String → UInt64) :
    Except Fault (Option WorkerNode) := do
  let entries ← getMap storage
  if entries.length = 0 then throw (.fatal "There is no candidate machine to select from.")
  else pure ((it.select.order entries).foldl (Selection.next it.draws scores) {}).selected

/-- `KubernetesPolicy` -/
structure KubernetesPolicy where
  resourceMap : ResourceMap

/-- `NewKubernetesPolicy` -/
def newKubernetesPolicy : KubernetesPolicy := ⟨createResourceMap 1 1⟩

/-- `KubernetesPolicy.Place` -/
def KubernetesPolicy.place (policy : KubernetesPolicy) (sqrt : ℚ → ℚ) (it : Iterations)
    (storage : List Entry) (requested : ResourceMap) : Except Fault (Option WorkerNode) := do
  let filteredStorage ← filterMachines it storage policy.resourceMap
  let scores ← prioritizeNodes sqrt it filteredStorage requested
  selectOneMachine it filteredStorage scores

/-! ## The nil storage -/

variable {it : Iterations} {sqrt : ℚ → ℚ} {request : ResourceMap} {entries : List Entry}

theorem filterMachines_cases (it : Iterations) (storage : List Entry) (resourceMap : ResourceMap) :
    filterMachines it storage resourceMap = .ok none ∨
      filterMachines it storage resourceMap = .error .nilDereference := by
  unfold filterMachines
  generalize it.filter.order storage = entries
  induction entries with
  | nil => exact Or.inl rfl
  | cons entry entries ih =>
    rw [List.foldlM_cons]
    dsimp only
    split_ifs
    · exact ih
    · exact Or.inr rfl

/-- **`Place` faults on every input.** -/
theorem place_faults (policy : KubernetesPolicy) (sqrt : ℚ → ℚ) (it : Iterations)
    (storage : List Entry) (requested : ResourceMap) :
    policy.place sqrt it storage requested = .error .nilDereference := by
  rw [KubernetesPolicy.place]
  rcases filterMachines_cases it storage policy.resourceMap with h | h
  · rw [h]
    rfl
  · rw [h]
    rfl

/-- The entries in their own order, and draws that never replace the selected node. -/
def plainIterations : Iterations where
  filter := Shuffle.id _
  prioritize _ := Shuffle.id _
  resourceKeys _ _ := Shuffle.id _
  select := Shuffle.id _
  draws _ := 1

/-- One idle node that fits: the call faults. -/
theorem place_faults_of_fitting :
    newKubernetesPolicy.place (fun x => x) plainIterations
      [("a", { name := "a", cpuCores := 8, memory := 64, schedulability := true })]
      (createResourceMap 1 1) = .error .nilDereference := rfl

/-! ## The scores -/

theorem toNat_leastRequestedScore_le (requested capacity : UInt64) :
    (leastRequestedScore requested capacity).toNat ≤ 100 := by
  unfold leastRequestedScore
  split_ifs with hzero hgt
  · exact Nat.zero_le _
  · exact Nat.zero_le _
  · rw [UInt64.toNat_div, UInt64.toNat_mul, UInt64.toNat_sub_of_le _ _ (UInt64.not_lt.1 hgt)]
    refine Nat.div_le_of_le_mul ?_
    refine (Nat.mod_le _ _).trans ?_
    exact Nat.mul_le_mul_right _ (Nat.sub_le _ _)

theorem lookup_cpu (cpu memory : UInt64) :
    (createResourceMap cpu memory).resources.lookup rmCpuKey = some cpu := rfl

theorem lookup_memory (cpu memory : UInt64) :
    (createResourceMap cpu memory).resources.lookup rmMemoryKey = some memory := rfl

theorem order_keys (keys : Shuffle String) (cpu memory : UInt64) :
    keys.order (createResourceMap cpu memory).resources.keys = [rmMemoryKey, rmCpuKey] ∨
      keys.order (createResourceMap cpu memory).resources.keys = [rmCpuKey, rmMemoryKey] := by
  have hperm := keys.perm (createResourceMap cpu memory).resources.keys
  have hkeys : (createResourceMap cpu memory).resources.keys = [rmMemoryKey, rmCpuKey] := rfl
  rw [hkeys] at hperm ⊢
  exact List.perm_pair.1 hperm

/-- **The fit score** is the mean of two scores below `100`, whatever the order of the keys is. -/
theorem scoreFitLeastAllocated_eq (keys : Shuffle String) (cpu memory rcpu rmemory : UInt64) :
    scoreFitLeastAllocated keys (createResourceMap cpu memory) (createResourceMap rcpu rmemory) =
      .ok ((leastRequestedScore rcpu cpu + leastRequestedScore rmemory memory) / 2) := by
  have hcpu : weights rmCpuKey = 1 := rfl
  have hmemory : weights rmMemoryKey = 1 := rfl
  rw [scoreFitLeastAllocated]
  rcases order_keys keys cpu memory with h | h
  · rw [h, UInt64.add_comm (leastRequestedScore rcpu cpu)]
    simp only [fitLoop, ResourceMap.getByKey, lookup_cpu, lookup_memory, hcpu, hmemory, pure,
      Except.pure, bind, Except.bind, UInt64.mul_one, UInt64.zero_add]
    rfl
  · rw [h]
    simp only [fitLoop, ResourceMap.getByKey, lookup_cpu, lookup_memory, hcpu, hmemory, pure,
      Except.pure, bind, Except.bind, UInt64.mul_one, UInt64.zero_add]
    rfl

/-- The part of a resource that is requested, at most all of it. -/
def fraction (requested capacity : UInt64) : ℚ :=
  if (requested.toNat : ℚ) / capacity.toNat > 1 then 1 else requested.toNat / capacity.toNat

theorem fraction_bounds (requested capacity : UInt64) :
    0 ≤ fraction requested capacity ∧ fraction requested capacity ≤ 1 := by
  unfold fraction
  split_ifs with h
  · exact ⟨zero_le_one, le_rfl⟩
  · exact ⟨by positivity, not_lt.1 h⟩

/-- The balance of two fractions, out of `100`. -/
def balance (first second : ℚ) : ℤ := ⌊(1 - |(first - second) / 2|) * 100⌋

theorem balance_comm (first second : ℚ) : balance first second = balance second first := by
  rw [balance, balance, ← abs_neg, neg_div', neg_sub]

theorem balance_bounds {first second : ℚ} (h₁ : 0 ≤ first ∧ first ≤ 1)
    (h₂ : 0 ≤ second ∧ second ≤ 1) : 50 ≤ balance first second ∧ balance first second ≤ 100 := by
  have habs : |(first - second) / 2| ≤ 1 / 2 := by
    rw [abs_le]
    constructor <;> linarith
  have hnonneg := abs_nonneg ((first - second) / 2)
  constructor
  · rw [balance, Int.le_floor]
    push_cast
    linarith
  · have hle : (balance first second : ℚ) ≤ 100 := by
      refine (Int.floor_le _).trans ?_
      linarith
    exact_mod_cast hle

/-- **The balance score**, whatever the order of the keys is. -/
theorem scoreBalancedAllocation_eq (sqrt : ℚ → ℚ) (keys : Shuffle String)
    (cpu memory rcpu rmemory : UInt64) :
    scoreBalancedAllocation sqrt keys (createResourceMap cpu memory)
      (createResourceMap rcpu rmemory) =
      .ok (UInt64.ofNat (balance (fraction rcpu cpu) (fraction rmemory memory)).toNat) := by
  rw [scoreBalancedAllocation]
  rcases order_keys keys cpu memory with h | h
  · rw [h, balance_comm]
    simp only [fractionLoop, ResourceMap.getByKey, lookup_cpu, lookup_memory, pure,
      Except.pure, bind, Except.bind]
    rfl
  · rw [h]
    simp only [fractionLoop, ResourceMap.getByKey, lookup_cpu, lookup_memory, pure,
      Except.pure, bind, Except.bind]
    rfl

/-- The fit score of a machine. -/
def fitScore (request : ResourceMap) (machine : WorkerNode) : UInt64 :=
  (leastRequestedScore (machine.cpuUsage * machine.cpuCores + request.getCPUCores)
    machine.cpuCores +
    leastRequestedScore (machine.memoryUsage * machine.memory + request.getMemory)
      machine.memory) / 2

/-- The balance score of a machine. -/
def balanceScore (request : ResourceMap) (machine : WorkerNode) : UInt64 :=
  UInt64.ofNat (balance
    (fraction (machine.cpuUsage * machine.cpuCores + request.getCPUCores) machine.cpuCores)
    (fraction (machine.memoryUsage * machine.memory + request.getMemory) machine.memory)).toNat

theorem toNat_fitScore_le (request : ResourceMap) (machine : WorkerNode) :
    (fitScore request machine).toNat ≤ 100 := by
  have hcpu := toNat_leastRequestedScore_le
    (machine.cpuUsage * machine.cpuCores + request.getCPUCores) machine.cpuCores
  have hmemory := toNat_leastRequestedScore_le
    (machine.memoryUsage * machine.memory + request.getMemory) machine.memory
  have htwo : (2 : UInt64).toNat = 2 := rfl
  rw [fitScore, UInt64.toNat_div, UInt64.toNat_add, htwo, Nat.mod_eq_of_lt (by omega)]
  omega

theorem toNat_balanceScore_bounds (request : ResourceMap) (machine : WorkerNode) :
    50 ≤ (balanceScore request machine).toNat ∧ (balanceScore request machine).toNat ≤ 100 := by
  have hbounds := balance_bounds
    (fraction_bounds (machine.cpuUsage * machine.cpuCores + request.getCPUCores) machine.cpuCores)
    (fraction_bounds (machine.memoryUsage * machine.memory + request.getMemory) machine.memory)
  rw [balanceScore, UInt64.toNat_ofNat', Nat.mod_eq_of_lt (by omega)]
  omega

/-- **The total score** lies between `50` and `200`. -/
theorem toNat_total_bounds (request : ResourceMap) (machine : WorkerNode) :
    50 ≤ (fitScore request machine + balanceScore request machine).toNat ∧
      (fitScore request machine + balanceScore request machine).toNat ≤ 200 := by
  have hfit := toNat_fitScore_le request machine
  have hbalance := toNat_balanceScore_bounds request machine
  rw [UInt64.toNat_add, Nat.mod_eq_of_lt (by omega)]
  omega

theorem addScores_ok (it : Iterations) (alg : ScoringAlgorithm) (value : WorkerNode → UInt64)
    (halg : ∀ keys machine, alg.score keys (getInstalledResources machine)
      (getRequestedResources machine request) = .ok (value machine))
    (hnodup : (entries.map Prod.fst).Nodup) (scores : String → UInt64) :
    ∃ scores', addScores it request alg entries scores = .ok scores' ∧
      (∀ e ∈ entries, scores' e.1 = scores e.1 + value e.2) ∧
        ∀ key, key ∉ entries.map Prod.fst → scores' key = scores key := by
  induction entries generalizing scores with
  | nil => exact ⟨scores, rfl, by simp, fun _ _ => rfl⟩
  | cons e entries ih =>
    obtain ⟨hnew, hrest⟩ := List.nodup_cons.1 hnodup
    obtain ⟨scores', hscores, hmem, hother⟩ :=
      ih hrest (Function.update scores e.1 (scores e.1 + value e.2))
    refine ⟨scores', ?_, ?_, ?_⟩
    · simp only [addScores, halg, bind, Except.bind]
      exact hscores
    · intro e' he'
      rcases List.mem_cons.1 he' with rfl | he'
      · rw [hother _ hnew, Function.update_self]
      · have hne : e'.1 ≠ e.1 := by
          intro heq
          exact hnew (heq ▸ List.mem_map_of_mem he')
        rw [hmem e' he', Function.update_of_ne hne]
    · intro key hkey
      rw [List.map_cons, List.mem_cons, not_or] at hkey
      rw [hother key hkey.2, Function.update_of_ne hkey.1]

/-- **The scores** are the sums of both, for every node and in every order. -/
theorem prioritizeNodes_ok (sqrt : ℚ → ℚ) (it : Iterations) (request : ResourceMap)
    (hnodup : (entries.map Prod.fst).Nodup) :
    ∃ scores, prioritizeNodes sqrt it (some entries) request = .ok scores ∧
      ∀ e ∈ entries, scores e.1 = fitScore request e.2 + balanceScore request e.2 := by
  have horder : ∀ name, (((it.prioritize name).order entries).map Prod.fst).Nodup := by
    intro name
    exact (((it.prioritize name).perm entries).map Prod.fst).nodup_iff.2 hnodup
  obtain ⟨fits, hfits, hfit, -⟩ := addScores_ok it
    ⟨"NodeResourcesFit", scoreFitLeastAllocated⟩ (fitScore request)
    (fun keys machine => scoreFitLeastAllocated_eq keys _ _ _ _)
      (horder "NodeResourcesFit") fun _ => 0
  obtain ⟨scores, hscores, hbalance, -⟩ := addScores_ok it
    ⟨"NodeResourcesBalancedAllocation", scoreBalancedAllocation sqrt⟩ (balanceScore request)
    (fun keys machine => scoreBalancedAllocation_eq sqrt keys _ _ _ _)
    (horder "NodeResourcesBalancedAllocation") fits
  refine ⟨scores, ?_, ?_⟩
  · simp only [prioritizeNodes, createScoringPipeline, List.foldlM_cons,
      List.foldlM_nil, getMap, pure, Except.pure, bind, Except.bind, hfits, hscores]
  · intro e he
    have hmem : ∀ name, e ∈ (it.prioritize name).order entries := by
      intro name
      exact ((it.prioritize name).perm entries).mem_iff.2 he
    rw [hbalance e (hmem _), hfit e (hmem _), UInt64.zero_add]

/-! ## The selection -/

/-- The selection once the nodes `seen` have been looked at. -/
structure Selected (scores : String → UInt64) (seen : List Entry) (sel : Selection) : Prop where
  le : ∀ e ∈ seen, scores e.1 ≤ sel.maxScore
  first : seen = [] → sel.maxScore = 0
  selected : seen ≠ [] → ∃ e ∈ seen, sel.selected = some e.2 ∧ scores e.1 = sel.maxScore

variable {scores : String → UInt64} {seen : List Entry} {sel : Selection}

/-- **One round** of the scan, for a node with a positive score. -/
theorem Selected.next (h : Selected scores seen sel) (draws : ℕ → ℕ) (e : Entry)
    (hpos : 0 < scores e.1) : Selected scores (seen ++ [e]) (sel.next draws scores e) := by
  have hmem : e ∈ seen ++ [e] := List.mem_append_right seen List.mem_cons_self
  have hne : seen ++ [e] ≠ [] := List.append_ne_nil_of_right_ne_nil _ (List.cons_ne_nil _ _)
  -- a node that does not raise the maximum comes after another one
  have hseen : ¬ scores e.1 > sel.maxScore → seen ≠ [] := by
    intro hle hnil
    rw [h.first hnil] at hle
    exact hle hpos
  have hbound : ∀ m, sel.maxScore ≤ m → scores e.1 ≤ m → ∀ e' ∈ seen ++ [e], scores e'.1 ≤ m := by
    intro m hmax hscore e' he'
    rcases List.mem_append.1 he' with he' | he'
    · exact UInt64.le_trans (h.le e' he') hmax
    · rw [List.mem_singleton.1 he']
      exact hscore
  unfold Selection.next
  split_ifs with hgt heq hdraw
  · exact ⟨hbound _ (UInt64.le_of_lt hgt) (UInt64.le_refl _), fun hnil => absurd hnil hne,
      fun _ => ⟨e, hmem, rfl, rfl⟩⟩
  · -- a tie, and the draw takes the new node
    exact ⟨hbound _ (UInt64.le_refl _) (UInt64.not_lt.1 hgt), fun hnil => absurd hnil hne,
      fun _ => ⟨e, hmem, rfl, heq⟩⟩
  · obtain ⟨e', he', hselected, hscore⟩ := h.selected (hseen hgt)
    exact ⟨hbound _ (UInt64.le_refl _) (UInt64.not_lt.1 hgt), fun hnil => absurd hnil hne,
      fun _ => ⟨e', List.mem_append_left _ he', hselected, hscore⟩⟩
  · obtain ⟨e', he', hselected, hscore⟩ := h.selected (hseen hgt)
    exact ⟨hbound _ (UInt64.le_refl _) (UInt64.not_lt.1 hgt), fun hnil => absurd hnil hne,
      fun _ => ⟨e', List.mem_append_left _ he', hselected, hscore⟩⟩

/-- **The scan** over the nodes that are left. -/
theorem Selected.foldl (h : Selected scores seen sel) (draws : ℕ → ℕ)
    (hpos : ∀ e ∈ entries, 0 < scores e.1) :
    Selected scores (seen ++ entries) (entries.foldl (Selection.next draws scores) sel) := by
  induction entries generalizing seen sel with
  | nil => simpa using h
  | cons e entries ih =>
    have hnext := h.next draws e (hpos e List.mem_cons_self)
    have hrest := ih hnext fun e' he' => hpos e' (List.mem_cons_of_mem e he')
    rw [List.append_assoc] at hrest
    exact hrest

theorem selected_nil (scores : String → UInt64) : Selected scores [] {} :=
  ⟨by simp, fun _ => rfl, fun h => absurd rfl h⟩

/-- A storage with nodes that have a CPU and memory each. -/
structure Machines (entries : List Entry) : Prop where
  ne_nil : entries ≠ []
  nodup : (entries.map Prod.fst).Nodup
  installed : ∀ e ∈ entries, 1 ≤ e.2.cpuCores ∧ 1 ≤ e.2.memory

/-- **A best node is selected**, in every order and whatever is drawn. -/
theorem selectOneMachine_best (h : Machines entries) (sqrt : ℚ → ℚ) (it : Iterations)
    (request : ResourceMap) :
    ∃ scores, prioritizeNodes sqrt it (some entries) request = .ok scores ∧
      (∀ e ∈ entries, 50 ≤ scores e.1 ∧ scores e.1 ≤ 200) ∧
        ∃ e ∈ entries, selectOneMachine it (some entries) scores = .ok (some e.2) ∧
          ∀ e' ∈ entries, scores e'.1 ≤ scores e.1 := by
  obtain ⟨scores, hscores, hsum⟩ := prioritizeNodes_ok sqrt it request h.nodup
  have hbounds : ∀ e ∈ entries, 50 ≤ scores e.1 ∧ scores e.1 ≤ 200 := by
    intro e he
    rw [hsum e he, UInt64.le_iff_toNat_le, UInt64.le_iff_toNat_le]
    exact toNat_total_bounds request e.2
  have hmem : ∀ e, e ∈ it.select.order entries ↔ e ∈ entries := fun e =>
    (it.select.perm entries).mem_iff
  have hscan := Selected.foldl (selected_nil scores) it.draws
    (show ∀ e ∈ it.select.order entries, 0 < scores e.1 by
    intro e he
    have hfifty := (hbounds e ((hmem e).1 he)).1
    rw [UInt64.le_iff_toNat_le] at hfifty
    rw [UInt64.lt_iff_toNat_lt]
    exact lt_of_lt_of_le (by decide) hfifty)
  have hne : it.select.order entries ≠ [] := by
    intro hnil
    refine h.ne_nil (List.length_eq_zero_iff.1 ?_)
    rw [← (it.select.perm entries).length_eq, hnil, List.length_nil]
  rw [List.nil_append] at hscan
  obtain ⟨e, he, hselected, hmax⟩ := hscan.selected hne
  refine ⟨scores, hscores, hbounds, e, (hmem e).1 he, ?_, ?_⟩
  · have hlength : entries.length ≠ 0 := by
      intro hzero
      exact h.ne_nil (List.length_eq_zero_iff.1 hzero)
    simp only [selectOneMachine, getMap, pure, Except.pure, bind, Except.bind, hlength, if_false,
      hselected]
  · intro e' he'
    rw [hmax]
    exact hscan.le e' ((hmem e').2 he')

/-- An idle node and a busy one. -/
def twoMachines : List Entry :=
  [("a", { name := "a", cpuCores := 8, memory := 64 }),
    ("b", { name := "b", cpuCores := 4, memory := 64, cpuUsage := 1 })]

theorem machines_two : Machines twoMachines := ⟨by decide, by decide, by decide⟩

theorem selectOneMachine_best_two :
    ∃ scores, prioritizeNodes (fun x => x) plainIterations (some twoMachines)
        (createResourceMap 1 1) = .ok scores ∧
      (∀ e ∈ twoMachines, 50 ≤ scores e.1 ∧ scores e.1 ≤ 200) ∧
        ∃ e ∈ twoMachines,
          selectOneMachine plainIterations (some twoMachines) scores = .ok (some e.2) ∧
            ∀ e' ∈ twoMachines, scores e'.1 ≤ scores e.1 :=
  selectOneMachine_best machines_two (fun x => x) plainIterations (createResourceMap 1 1)

/-! ## The usage of a node -/

/-- The heartbeats report percentages. -/
def Percentages (node : WorkerNode) : Prop := node.cpuUsage ≤ 100 ∧ node.memoryUsage ≤ 100

instance (node : WorkerNode) : Decidable (Percentages node) := inferInstanceAs (Decidable (_ ∧ _))

/-- The usage that is added to the request does not exceed what is installed. -/
def WithinInstalled (node : WorkerNode) : Prop :=
  (currentUsage node).getCPUCores ≤ node.cpuCores ∧ (currentUsage node).getMemory ≤ node.memory

instance (node : WorkerNode) : Decidable (WithinInstalled node) :=
  inferInstanceAs (Decidable (_ ∧ _))

/-- The percentage is `0` or `1`, or there is no capacity, or the capacity is so large that the last
step up to the product passes a multiple of `2 ^ 64`. -/
def Fits (usage capacity : UInt64) : Prop :=
  usage ≤ 1 ∨ capacity = 0 ∨ ∃ k, 0 < k ∧ (usage.toNat - 1) * capacity.toNat ≤ k * 2 ^ 64 ∧
    k * 2 ^ 64 ≤ usage.toNat * capacity.toNat

/-- What is left of a product after it has wrapped is within a factor exactly if the last step
passes a multiple of the modulus. -/
theorem mul_mod_le_iff {u c n : ℕ} (hc : c < n) :
    (u + 1) * c % n ≤ c ↔ ∃ k, u * c ≤ k * n ∧ k * n ≤ (u + 1) * c := by
  have hdiv := Nat.div_add_mod ((u + 1) * c) n
  have hstep : (u + 1) * c = u * c + c := Nat.succ_mul u c
  rw [Nat.mul_comm] at hdiv
  constructor
  · exact fun hle => ⟨(u + 1) * c / n, by omega, by omega⟩
  · rintro ⟨k, hlow, hhigh⟩
    have hk : k ≤ (u + 1) * c / n := (Nat.le_div_iff_mul_le (by omega)).2 hhigh
    have hmul := Nat.mul_le_mul_right n hk
    omega

theorem mul_le_iff (usage capacity : UInt64) :
    usage * capacity ≤ capacity ↔ Fits usage capacity := by
  rw [Fits, UInt64.le_iff_toNat_le, UInt64.le_iff_toNat_le, UInt64.toNat_mul, ← UInt64.toNat_inj]
  show usage.toNat * capacity.toNat % 2 ^ 64 ≤ capacity.toNat ↔
    usage.toNat ≤ 1 ∨ capacity.toNat = 0 ∨ _
  cases usage.toNat with
  | zero => simp
  | succ u =>
    rw [mul_mod_le_iff capacity.toNat_lt, Nat.add_sub_cancel]
    constructor
    · rintro ⟨k, hlow, hhigh⟩
      cases k with
      | zero =>
        rcases Nat.mul_eq_zero.1 (Nat.le_zero.1 (by simpa using hlow)) with hu | hcapacity
        · exact .inl (by omega)
        · exact .inr (.inl hcapacity)
      | succ k => exact .inr (.inr ⟨k + 1, k.succ_pos, hlow, hhigh⟩)
    · rintro (husage | hcapacity | ⟨k, -, hlow, hhigh⟩)
      · exact ⟨0, by simp [show u = 0 by omega], by simp⟩
      · exact ⟨0, by simp [hcapacity], by simp⟩
      · exact ⟨k, hlow, hhigh⟩

/-- Two nodes of one size, of which the second is used more. -/
structure LessUsed (node node' : WorkerNode) : Prop where
  cpuCores : node'.cpuCores = node.cpuCores
  memory : node'.memory = node.memory
  cpuCores_le : 100 ≤ node.cpuCores.toNat
  memory_le : 100 ≤ node.memory.toNat
  cpuUsage : node.cpuUsage.toNat + 2 ≤ node'.cpuUsage.toNat
  memoryUsage : node.memoryUsage.toNat + 2 ≤ node'.memoryUsage.toNat
  percentages : Percentages node'

/-- The fit score of the first node is strictly greater. -/
def ScoresHigher (request : ResourceMap) (node node' : WorkerNode) : Prop :=
  ∀ keys keys', ∃ score score',
    scoreFitLeastAllocated keys (getInstalledResources node) (getRequestedResources node request) =
        .ok score ∧
      scoreFitLeastAllocated keys' (getInstalledResources node')
        (getRequestedResources node' request) = .ok score' ∧ score' < score

theorem ScoresHigher.fitScore_lt {request : ResourceMap} {node node' : WorkerNode}
    (h : ScoresHigher request node node') : fitScore request node' < fitScore request node := by
  obtain ⟨score, score', heq, heq', hlt⟩ := h (Shuffle.id _) (Shuffle.id _)
  rw [getInstalledResources, getRequestedResources, sumResources, scoreFitLeastAllocated_eq,
    Except.ok.injEq] at heq heq'
  subst heq heq'
  exact hlt

/-- No product with a percentage passes `2 ^ 64`. -/
def Moderate (node : WorkerNode) : Prop :=
  100 * node.cpuCores.toNat < 2 ^ 64 ∧ 100 * node.memory.toNat < 2 ^ 64

/-- **All or nothing**: a resource scores `100` if none of it is used, and `0` otherwise. -/
theorem toNat_leastRequestedScore_usage {usage capacity : UInt64} (husage : usage.toNat ≤ 100)
    (hpos : 0 < capacity.toNat) (hmoderate : 100 * capacity.toNat < 2 ^ 64) :
    (leastRequestedScore (usage * capacity) capacity).toNat =
      if usage.toNat = 0 then 100 else 0 := by
  have hne : capacity ≠ 0 := by
    rintro rfl
    exact absurd hpos (by decide)
  have hmul : usage.toNat * capacity.toNat ≤ 100 * capacity.toNat := Nat.mul_le_mul_right _ husage
  have hproduct : (usage * capacity).toNat = usage.toNat * capacity.toNat := by
    rw [UInt64.toNat_mul, Nat.mod_eq_of_lt (by omega)]
  have hhundred : (100 : UInt64).toNat = 100 := rfl
  rw [leastRequestedScore, if_neg hne]
  by_cases hgt : usage * capacity > capacity
  · -- two percent are twice the capacity
    have husage : usage.toNat ≠ 0 := by
      intro hzero
      rw [gt_iff_lt, UInt64.lt_iff_toNat_lt, hproduct, hzero, Nat.zero_mul] at hgt
      omega
    rw [if_pos hgt, if_neg husage]
    rfl
  · rw [if_neg hgt, UInt64.toNat_div, UInt64.toNat_mul,
      UInt64.toNat_sub_of_le _ _ (UInt64.not_lt.1 hgt), hproduct, hhundred]
    rw [gt_iff_lt, UInt64.lt_iff_toNat_lt, hproduct] at hgt
    split_ifs with hzero
    · rw [hzero, Nat.zero_mul, Nat.sub_zero, Nat.mod_eq_of_lt (by omega), Nat.mul_comm]
      exact Nat.mul_div_cancel 100 hpos
    · have hone : usage.toNat * capacity.toNat = capacity.toNat := by
        have := Nat.mul_le_mul_right capacity.toNat (show 1 ≤ usage.toNat by omega)
        omega
      rw [hone, Nat.sub_self, Nat.zero_mul, Nat.zero_mod, Nat.zero_div]

theorem toNat_fitScore {node : WorkerNode} (hcpu : request.getCPUCores = 0)
    (hmemory : request.getMemory = 0) (hpercentages : Percentages node) (hmoderate : Moderate node)
    (hcores : 0 < node.cpuCores.toNat) (hmem : 0 < node.memory.toNat) :
    (fitScore request node).toNat = ((if node.cpuUsage.toNat = 0 then 100 else 0) +
      if node.memoryUsage.toNat = 0 then 100 else 0) / 2 := by
  have hfirst := toNat_leastRequestedScore_usage (UInt64.le_iff_toNat_le.1 hpercentages.1) hcores
    hmoderate.1
  have hsecond := toNat_leastRequestedScore_usage (UInt64.le_iff_toNat_le.1 hpercentages.2) hmem
    hmoderate.2
  have htwo : (2 : UInt64).toNat = 2 := rfl
  rw [fitScore, hcpu, hmemory, UInt64.add_zero, UInt64.add_zero, UInt64.toNat_div, UInt64.toNat_add,
    hfirst, hsecond, htwo, Nat.mod_eq_of_lt (by split_ifs <;> decide)]

/-- **Usage accounting.** The usage that is added fits exactly where each percentage is `0` or `1`
(or the product wraps, or there is nothing installed), and of two nodes the less used one scores
higher exactly where it does not use one of the resources at all. -/
theorem usage_accounting (node : WorkerNode) :
    (Percentages node →
      (WithinInstalled node ↔
        Fits node.cpuUsage node.cpuCores ∧ Fits node.memoryUsage node.memory)) ∧
    ∀ node' request, LessUsed node node' → Moderate node → request.getCPUCores = 0 →
      request.getMemory = 0 →
        (ScoresHigher request node node' ↔ node.cpuUsage = 0 ∨ node.memoryUsage = 0) := by
  constructor
  · intro _
    rw [← mul_le_iff, ← mul_le_iff]
    exact Iff.rfl
  · intro node' request hless hmoderate hcpu hmemory
    have hused : node'.cpuUsage.toNat ≤ 100 ∧ node'.memoryUsage.toNat ≤ 100 :=
      ⟨UInt64.le_iff_toNat_le.1 hless.percentages.1, UInt64.le_iff_toNat_le.1 hless.percentages.2⟩
    have hcpuUsage := hless.cpuUsage
    have hmemoryUsage := hless.memoryUsage
    have hcores := hless.cpuCores_le
    have hmem := hless.memory_le
    have hpercentages : Percentages node := by
      rw [Percentages, UInt64.le_iff_toNat_le, UInt64.le_iff_toNat_le]
      show node.cpuUsage.toNat ≤ 100 ∧ node.memoryUsage.toNat ≤ 100
      omega
    have hmoderate' : Moderate node' := by
      rw [Moderate, hless.cpuCores, hless.memory]
      exact hmoderate
    have hscore := toNat_fitScore hcpu hmemory hpercentages hmoderate (by omega) (by omega)
    have hscore' := toNat_fitScore hcpu hmemory hless.percentages hmoderate'
      (by rw [hless.cpuCores]; omega) (by rw [hless.memory]; omega)
    rw [if_neg (by omega), if_neg (by omega)] at hscore'
    have hhigher : ScoresHigher request node node' ↔ 0 < (fitScore request node).toNat := by
      constructor
      · intro h
        exact lt_of_le_of_lt (Nat.zero_le _) (UInt64.lt_iff_toNat_lt.1 h.fitScore_lt)
      · intro hpos keys keys'
        refine ⟨fitScore request node, fitScore request node', scoreFitLeastAllocated_eq _ _ _ _ _,
          scoreFitLeastAllocated_eq _ _ _ _ _, ?_⟩
        rw [UInt64.lt_iff_toNat_lt, hscore']
        exact hpos
    rw [hhigher, hscore, ← UInt64.toNat_inj, ← UInt64.toNat_inj]
    show _ ↔ node.cpuUsage.toNat = 0 ∨ node.memoryUsage.toNat = 0
    split_ifs with h₁ h₂ h₂ <;> simp [h₁, h₂]

/-- A node that uses no CPU and one percent of its memory. -/
def idleNode : WorkerNode :=
  { name := "a", cpuCores := 100, memory := 100, cpuUsage := 0, memoryUsage := 1 }

/-- A node that uses a little more of both. -/
def usedNode : WorkerNode :=
  { name := "b", cpuCores := 100, memory := 100, cpuUsage := 2, memoryUsage := 3 }

theorem lessUsed_idleNode : LessUsed idleNode usedNode :=
  ⟨rfl, rfl, by decide, by decide, by decide, by decide, by decide⟩

theorem usage_accounting_idle :
    WithinInstalled idleNode ∧ ScoresHigher (createResourceMap 0 0) idleNode usedNode :=
  ⟨((usage_accounting idleNode).1 (by decide)).2 ⟨.inl (by decide), .inl (by decide)⟩,
    ((usage_accounting idleNode).2 usedNode _ lessUsed_idleNode ⟨by decide, by decide⟩ rfl rfl).2
      (.inl rfl)⟩

/-- **A node with four CPUs of which half is in use** counts as using two hundred, and two nodes
that are used by `10` and by `90` percent score the same. -/
theorem usage_overcounted :
    ¬ WithinInstalled { name := "a", cpuCores := 4, memory := 64, cpuUsage := 50 } ∧
      LessUsed { name := "a", cpuCores := 100, memory := 100, cpuUsage := 10, memoryUsage := 10 }
        { name := "b", cpuCores := 100, memory := 100, cpuUsage := 90, memoryUsage := 90 } ∧
      ¬ ScoresHigher (createResourceMap 0 0)
        { name := "a", cpuCores := 100, memory := 100, cpuUsage := 10, memoryUsage := 10 }
        { name := "b", cpuCores := 100, memory := 100, cpuUsage := 90, memoryUsage := 90 } := by
  refine ⟨by decide, ⟨rfl, rfl, by decide, by decide, by decide, by decide, by decide⟩, ?_⟩
  exact fun h => absurd h.fitScore_lt (by decide)

end Dirigent.PlacementPolicy
