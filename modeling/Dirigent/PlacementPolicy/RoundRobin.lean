import Dirigent.Machine
import Mathlib.Data.List.Rotate

/-!
# Round-robin placement

`RoundRobinPlacement.Place` lists the schedulable nodes, takes the one that a counter points to and
moves the counter on by a compare-and-swap. The old value that it compares with has already been
reduced modulo the number of nodes, and the list is made anew in every call, from a map.

**Termination.** Without a concurrent call the loop sees the same counter in each round, so it ends
in the first round or never: the counter has to be below the number of nodes (`place_succ`). Earlier
calls leave it below the number of nodes that there were then, which may have been more.

**Fairness.** A call takes the node at the counter's place in the order of its own list. If all
calls see one order, `n` calls go once around it (`placed_range`). If the orders differ, they can
all have the same node at the place in question (`exists_orders`).

* `returns_iff` — in every run, a call returns a schedulable node exactly if the counter is below
  the number of schedulable nodes.
* `fair_iff` — `n` calls return each of `n` nodes once, whatever the orders, exactly if `n = 1`; and
  if all calls see the same order.
-/

namespace Dirigent.PlacementPolicy

/-- What the policies read of a worker node. -/
structure WorkerNode where
  name : String
  cpuCores : UInt64 := 0
  memory : UInt64 := 0
  cpuUsage : UInt64 := 0
  memoryUsage : UInt64 := 0
  schedulability : Bool := false
  deriving DecidableEq, Repr

/-- Why a call does not return: a Go panic, or `logrus.Fatal`. -/
inductive Fault
  | divisionByZero
  | indexOutOfRange
  | nilDereference
  | fatal (message : String)
  deriving DecidableEq, Repr

/-- `getSchedulableNodes` -/
def getSchedulableNodes (allNodes : List WorkerNode) : List WorkerNode :=
  allNodes.filter (·.schedulability)

/-- The loop of `Place` for `n` nodes: the index and the new counter, or `none` if it has not ended
after `rounds` rounds. -/
def swapLoop (n : Int32) : ℕ → Int32 → Except Fault (Option (Int32 × Int32))
  | 0, _ => pure none
  | rounds + 1, counter =>
    if n = 0 then throw .divisionByZero
    else
      let index := counter % n
      let newIndex := (index + 1) % n
      if counter = index then pure (some (index, newIndex)) else swapLoop n rounds counter

/-- `RoundRobinPlacement.Place` on the result of `GetValues`: the node and the new counter, or
`none` if the loop has not ended after `rounds` rounds. -/
def place (rounds : ℕ) (counter : Int32) (values : List WorkerNode) :
    Except Fault (Option (Option WorkerNode × Int32)) := do
  let schedulable := getSchedulableNodes values
  if schedulable.length = 0 then pure (some (none, counter))
  else
    match ← swapLoop (Int32.ofNat schedulable.length) rounds counter with
    | none => pure none
    | some (index, counter) =>
      if 0 ≤ index.toInt then
        match schedulable[index.toInt.toNat]? with
        | some node => pure (some (some node, counter))
        | none => throw .indexOutOfRange
      else throw .indexOutOfRange

/-- A call of `Place` that ends after at most `rounds` rounds. -/
structure PlaceCall where
  rounds : ℕ
  values : List WorkerNode

/-- Calls of `Place`, one after the other, on any node storage. -/
def roundRobin : Machine Int32 PlaceCall where
  init := (· = 0)
  next counter call :=
    match place call.rounds counter call.values with
    | .ok (some (_, counter)) => some counter
    | _ => none

/-- The call ends and returns a schedulable node. -/
def Returns (counter : Int32) (values : List WorkerNode) : Prop :=
  ∃ rounds node counter', place rounds counter values = .ok (some (some node, counter')) ∧
    node ∈ values ∧ node.schedulability = true

/-! ## The loop -/

/-- The numbers that `%` leaves for `len` nodes are those below `span len`; it is `len` where that
is an `int32`. -/
def span (len : ℕ) : ℤ := |(Int32.ofNat len).toInt|

variable {counter counter' : Int32} {values nodes : List WorkerNode} {len rounds : ℕ}
  {node : WorkerNode}

theorem toInt_ofNat_eq (len : ℕ) : (Int32.ofNat len).toInt = (len : ℤ).bmod (2 ^ 32) :=
  Int32.toInt_ofNat'

theorem span_le (len : ℕ) : span len ≤ len := by
  rw [span, toInt_ofNat_eq, Int.bmod_def]
  split_ifs
  · rw [abs_of_nonneg (by omega)]
    omega
  · rw [abs_of_nonpos (by omega)]
    omega

theorem span_eq (h : len < 2 ^ 31) : span len = len := by
  rw [span, toInt_ofNat_eq, Int.bmod_eq_of_le (by omega) (by omega), Nat.abs_cast]

theorem ofNat_ne_zero_of_lt (hpos : 0 ≤ counter.toInt) (h : counter.toInt < span len) :
    Int32.ofNat len ≠ 0 := by
  intro hzero
  rw [span, hzero] at h
  simp at h
  omega

/-- The compare-and-swap succeeds exactly if the counter is below the number of nodes. -/
theorem mod_eq_self_iff (hpos : 0 ≤ counter.toInt) (hne : Int32.ofNat len ≠ 0) :
    counter = counter % Int32.ofNat len ↔ counter.toInt < span len := by
  have hne' : (Int32.ofNat len).toInt ≠ 0 := by
    intro hzero
    exact hne (Int32.toInt_inj.1 hzero)
  rw [← Int32.toInt_inj, Int32.toInt_mod, Int.tmod_eq_emod_of_nonneg hpos, span]
  constructor
  · intro h
    rw [h]
    exact Int.emod_lt_abs _ hne'
  · intro h
    rw [← Int.emod_abs, Int.emod_eq_of_lt hpos h]

theorem newIndex_bounds (hpos : 0 ≤ counter.toInt) (h : counter.toInt < span len) :
    ((counter + 1) % Int32.ofNat len).toInt = (counter.toInt + 1) % span len := by
  have hle := Int32.le_toInt (Int32.ofNat len)
  have hlt := Int32.toInt_lt (Int32.ofNat len)
  have hone : (1 : Int32).toInt = 1 := rfl
  rw [Int32.toInt_mod, Int32.toInt_add, hone]
  unfold span at *
  by_cases hmax : counter.toInt + 1 < 2 ^ 31
  · rw [Int.bmod_eq_of_le (by omega) (by omega),
      Int.tmod_eq_emod_of_nonneg (by omega), Int.emod_abs]
  · -- the largest `int32`: the number of nodes has become the smallest one
    have hmin : (Int32.ofNat len).toInt = -2 ^ 31 := by
      rcases abs_cases (Int32.ofNat len).toInt with ⟨habs, -⟩ | ⟨habs, -⟩ <;> omega
    have hcounter : counter.toInt + 1 = 2 ^ 31 := by
      rw [hmin] at h
      norm_num at h
      omega
    rw [hmin, hcounter]
    decide

/-- **The loop ends in the first round or never.** -/
theorem swapLoop_succ (hpos : 0 ≤ counter.toInt) (hne : Int32.ofNat len ≠ 0) (rounds : ℕ) :
    swapLoop (Int32.ofNat len) (rounds + 1) counter =
      if counter.toInt < span len then .ok (some (counter, (counter + 1) % Int32.ofNat len))
      else .ok none := by
  induction rounds with
  | zero =>
    rw [swapLoop, if_neg hne]
    dsimp only
    split_ifs with heq hlt hlt
    · rw [← heq]
      rfl
    · exact absurd ((mod_eq_self_iff hpos hne).1 heq) hlt
    · exact absurd ((mod_eq_self_iff hpos hne).2 hlt) heq
    · rfl
  | succ rounds ih =>
    rw [swapLoop, if_neg hne]
    dsimp only
    rw [ih]
    split_ifs with heq hlt hlt
    · rw [← heq]
      rfl
    · exact absurd ((mod_eq_self_iff hpos hne).1 heq) hlt
    · rfl
    · rfl

theorem place_of_lt (hpos : 0 ≤ counter.toInt)
    (hlt : counter.toInt < span (getSchedulableNodes values).length) :
    ∃ node, (getSchedulableNodes values)[counter.toInt.toNat]? = some node ∧
      ∀ rounds, place (rounds + 1) counter values =
        .ok (some (some node, (counter + 1) % Int32.ofNat
          (getSchedulableNodes values).length)) := by
  have hle := span_le (getSchedulableNodes values).length
  have hindex : counter.toInt.toNat < (getSchedulableNodes values).length := by omega
  refine ⟨_, List.getElem?_eq_getElem hindex, ?_⟩
  intro rounds
  rw [place, if_neg (by omega)]
  simp only [swapLoop_succ hpos (ofNat_ne_zero_of_lt hpos hlt), if_pos hlt, bind, Except.bind,
    if_pos hpos, List.getElem?_eq_getElem hindex]
  rfl

variable {result : Option WorkerNode} {order : List WorkerNode} {orders : List (List WorkerNode)}

theorem lt_of_place (hpos : 0 ≤ counter.toInt) (hne : (getSchedulableNodes values).length ≠ 0)
    (h : place rounds counter values = .ok (some (result, counter'))) :
    counter.toInt < span (getSchedulableNodes values).length := by
  by_contra hlt
  rw [place, if_neg hne] at h
  cases rounds with
  | zero =>
    simp only [swapLoop, bind, Except.bind, pure, Except.pure] at h
    cases h
  | succ rounds =>
    by_cases hzero : Int32.ofNat (getSchedulableNodes values).length = 0
    · rw [swapLoop, if_pos hzero] at h
      cases h
    · rw [swapLoop_succ hpos hzero, if_neg hlt] at h
      cases h

/-- **What a call that returns has done.** -/
theorem place_spec (hpos : 0 ≤ counter.toInt) (hne : (getSchedulableNodes values).length ≠ 0)
    (h : place rounds counter values = .ok (some (result, counter'))) :
    (getSchedulableNodes values)[counter.toInt.toNat]? = result ∧
      counter'.toInt = (counter.toInt + 1) % span (getSchedulableNodes values).length := by
  have hlt := lt_of_place hpos hne h
  obtain ⟨node, hnode, hplace⟩ := place_of_lt hpos hlt
  cases rounds with
  | zero =>
    rw [place, if_neg hne] at h
    cases h
  | succ rounds =>
    rw [hplace rounds, Except.ok.injEq, Option.some.injEq, Prod.mk.injEq] at h
    obtain ⟨rfl, rfl⟩ := h
    exact ⟨hnode, newIndex_bounds hpos hlt⟩

/-! ## Runs -/

theorem place_of_next {call : PlaceCall} (h : roundRobin.next counter call = some counter') :
    ∃ result, place call.rounds counter call.values = .ok (some (result, counter')) := by
  simp only [roundRobin] at h
  split at h
  · next result _ heq =>
    rw [Option.some.injEq] at h
    subst h
    exact ⟨result, heq⟩
  · cases h

theorem place_of_empty (hempty : (getSchedulableNodes values).length = 0)
    (h : place rounds counter values = .ok (some (result, counter'))) : counter' = counter := by
  rw [place, if_pos hempty] at h
  cases h
  rfl

/-- **The counter is never negative.** -/
theorem nonneg_of_run {tr : List (Machine.Step Int32 PlaceCall)}
    (hrun : roundRobin.Run tr counter) : 0 ≤ counter.toInt := by
  refine hrun.invariant_state (I := fun counter => 0 ≤ counter.toInt) ?_ ?_
  · rintro counter rfl
    decide
  · intro counter call counter' hpos hnext
    obtain ⟨result, hplace⟩ := place_of_next hnext
    by_cases hempty : (getSchedulableNodes call.values).length = 0
    · rw [place_of_empty hempty hplace]
      exact hpos
    · have hlt := lt_of_place hpos hempty hplace
      rw [(place_spec hpos hempty hplace).2]
      exact Int.emod_nonneg _ (by omega)

/-- **Termination.** A call with a schedulable node returns one exactly if the counter that the
earlier calls have left is below the number of schedulable nodes. -/
theorem returns_iff {tr : List (Machine.Step Int32 PlaceCall)} (hrun : roundRobin.Run tr counter)
    (hnode : ∃ node ∈ values, node.schedulability = true) :
    Returns counter values ↔ counter.toInt < span (getSchedulableNodes values).length := by
  have hpos := nonneg_of_run hrun
  constructor
  · rintro ⟨rounds, node, counter', hplace, -, -⟩
    refine lt_of_place hpos ?_ hplace
    obtain ⟨node, hmem, hschedulable⟩ := hnode
    exact (List.length_pos_of_mem (List.mem_filter.2 ⟨hmem, hschedulable⟩)).ne'
  · intro hlt
    obtain ⟨node, hindex, hplace⟩ := place_of_lt hpos hlt
    obtain ⟨hmem, hschedulable⟩ := List.mem_filter.1 (List.mem_of_getElem? hindex)
    exact ⟨1, node, _, hplace 0, hmem, hschedulable⟩

/-- Three nodes that are schedulable, or not. -/
def threeNodes (a b c : Bool) : List WorkerNode :=
  [{ name := "a", schedulability := a }, { name := "b", schedulability := b },
    { name := "c", schedulability := c }]

theorem exists_run_two : ∃ tr, roundRobin.Run tr 2 ∧ tr.length = 2 := by
  obtain ⟨tr, counter, hrun, hlength, rfl⟩ := Machine.exists_run_of_play (M := roundRobin)
    (P := fun tr counter => tr.length = 2 ∧ counter = 2)
    [⟨1, threeNodes true true true⟩, ⟨1, threeNodes true true true⟩] rfl (by decide +kernel)
  exact ⟨tr, hrun, hlength⟩

/-- After two calls with three nodes, a call with all three returns. -/
theorem returns_of_three :
    ∃ tr counter, roundRobin.Run tr counter ∧ tr.length = 2 ∧
      Returns counter (threeNodes true true true) := by
  obtain ⟨tr, hrun, hlength⟩ := exists_run_two
  exact ⟨tr, 2, hrun, hlength,
    (returns_iff hrun ⟨_, List.mem_cons_self, rfl⟩).2 (by decide +kernel)⟩

/-- **A call that never returns.** After two calls with three nodes two of them are left, and the
counter is `2`. -/
theorem exists_spinning :
    ∃ tr counter, roundRobin.Run tr counter ∧ tr.length = 2 ∧
      (∃ node ∈ threeNodes true false true, node.schedulability = true) ∧
        ∀ rounds, place rounds counter (threeNodes true false true) = .ok none := by
  obtain ⟨tr, hrun, hlength⟩ := exists_run_two
  refine ⟨tr, 2, hrun, hlength, ⟨_, List.mem_cons_self, rfl⟩, ?_⟩
  intro rounds
  rw [place, if_neg (by decide)]
  cases rounds with
  | zero => rfl
  | succ rounds =>
    have hlength : (getSchedulableNodes (threeNodes true false true)).length = 2 := rfl
    rw [hlength, swapLoop_succ (by decide) (by decide), if_neg (by decide +kernel)]
    rfl

/-! ## Fairness -/

/-- Successive calls, each with the order that its list has, and the nodes they return. -/
inductive Placed : Int32 → List (List WorkerNode) → List WorkerNode → Prop
  | nil {counter : Int32} : Placed counter [] []
  | cons {rounds : ℕ} {counter counter' : Int32} {values : List WorkerNode} {node : WorkerNode}
      {orders : List (List WorkerNode)} {picks : List WorkerNode} :
      place rounds counter values = .ok (some (some node, counter')) →
        Placed counter' orders picks → Placed counter (values :: orders) (node :: picks)

/-- The schedulable nodes of the list are `nodes`, in any order. -/
def Lists (nodes values : List WorkerNode) : Prop := (getSchedulableNodes values).Perm nodes

/-- The calls return each node exactly once. -/
def Fair (nodes : List WorkerNode) (counter : Int32) (orders : List (List WorkerNode)) : Prop :=
  ∃ picks, Placed counter orders picks ∧ picks.Perm nodes

/-- `n` nodes with a counter that earlier calls with the same nodes have left. -/
structure Left (nodes : List WorkerNode) (counter : Int32) : Prop where
  nodup : nodes.Nodup
  schedulable : ∀ node ∈ nodes, node.schedulability = true
  ne_nil : nodes ≠ []
  run : ∃ tr, roundRobin.Run tr counter ∧ ∀ t ∈ tr, Lists nodes t.event.values

/-- As many calls as there are nodes. -/
structure Orders (nodes : List WorkerNode) (orders : List (List WorkerNode)) : Prop where
  length : orders.length = nodes.length
  lists : ∀ values ∈ orders, Lists nodes values

theorem Lists.length_eq (h : Lists nodes values) :
    (getSchedulableNodes values).length = nodes.length := List.Perm.length_eq h

theorem lists_of_perm (hnodes : ∀ node ∈ nodes, node.schedulability = true)
    (h : values.Perm nodes) : Lists nodes values := by
  have hall : getSchedulableNodes values = values :=
    List.filter_eq_self.2 fun node hnode => hnodes node (h.mem_iff.1 hnode)
  rw [Lists, hall]
  exact h

theorem Left.lt_length (h : Left nodes counter) (hlen : nodes.length < 2 ^ 31) :
    counter.toInt < nodes.length := by
  have hne : 0 < nodes.length := List.length_pos_of_ne_nil h.ne_nil
  obtain ⟨tr, hrun, htr⟩ := h.run
  refine hrun.invariant (I := fun _ counter => counter.toInt < (nodes.length : ℤ))
    (G := fun t => Lists nodes t.event.values) ?_ ?_ htr
  · rintro counter rfl
    show (0 : ℤ) < nodes.length
    exact_mod_cast hne
  · intro tr counter call counter' hrun hlt hlists hnext
    obtain ⟨result, hplace⟩ := place_of_next hnext
    have hlength : (getSchedulableNodes call.values).length = nodes.length := hlists.length_eq
    rw [(place_spec (nonneg_of_run hrun) (by omega) hplace).2, hlength, span_eq hlen]
    exact Int.emod_lt_of_pos _ (by omega)

/-- **Calls that see one order** go around it, from the counter on. -/
theorem placed_around (hlen : order.length < 2 ^ 31) (hpos : 0 ≤ counter.toInt)
    (hlt : counter.toInt < order.length)
    (horder : ∀ values ∈ orders, getSchedulableNodes values = order) :
    ∃ picks, Placed counter orders picks ∧ picks.length = orders.length ∧
      ∀ i < orders.length, picks[i]? = order[(counter.toInt.toNat + i) % order.length]? := by
  -- by induction on the calls; the first one moves the counter on by one
  induction orders generalizing counter with
  | nil => exact ⟨[], .nil, rfl, fun i hi => by simp at hi⟩
  | cons values orders ih =>
    have hvalues : getSchedulableNodes values = order := horder values List.mem_cons_self
    have hspan : counter.toInt < span (getSchedulableNodes values).length := by
      rw [hvalues, span_eq hlen]
      exact hlt
    obtain ⟨node, hnode, hplace⟩ := place_of_lt hpos hspan
    have hnext := newIndex_bounds hpos hspan
    rw [hvalues] at hnode hplace hnext
    rw [span_eq hlen] at hnext
    obtain ⟨picks, hplaced, hlength, hpicks⟩ := ih
      (by rw [hnext]; exact Int.emod_nonneg _ (by omega))
      (by rw [hnext]; exact Int.emod_lt_of_pos _ (by omega))
      fun v hv => horder v (List.mem_cons_of_mem values hv)
    refine ⟨node :: picks, .cons (hplace 0) hplaced, by simp [hlength], ?_⟩
    intro i hi
    cases i with
    | zero =>
      rw [List.getElem?_cons_zero, Nat.add_zero, Nat.mod_eq_of_lt (by omega), hnode]
    | succ i =>
      have hcounter : ((counter + 1) % Int32.ofNat order.length).toInt.toNat =
          (counter.toInt.toNat + 1) % order.length := by
        obtain ⟨c, hc⟩ := Int.eq_ofNat_of_zero_le hpos
        rw [hnext, hc]
        norm_cast
      rw [List.getElem?_cons_succ, hpicks i (by simpa using hi), hcounter, Nat.mod_add_mod]
      congr 2
      omega

theorem Left.fair_of_eq (h : Left nodes counter) (hlen : nodes.length < 2 ^ 31)
    (hperm : order.Perm nodes) (horders : orders.length = nodes.length)
    (horder : ∀ values ∈ orders, getSchedulableNodes values = order) :
    Fair nodes counter orders := by
  obtain ⟨tr, hrun, -⟩ := h.run
  have hlength := hperm.length_eq
  have hlt := h.lt_length hlen
  obtain ⟨picks, hplaced, hpicks, haround⟩ := placed_around (by omega) (nonneg_of_run hrun)
    (by omega) horder
  refine ⟨picks, hplaced, ?_⟩
  have hrotate : picks = order.rotate counter.toInt.toNat := by
    refine List.ext_getElem (by simp [hpicks, horders, hlength]) fun i hi _ => ?_
    have hi' := haround i (by omega)
    rw [List.getElem?_eq_getElem hi,
      List.getElem?_eq_getElem (Nat.mod_lt _ (by omega)), Option.some.injEq] at hi'
    rw [hi', List.getElem_rotate]
    congr 2
    omega
  rw [hrotate]
  exact (List.rotate_perm order _).trans hperm

/-- The nodes can be listed with any of them at a given place. -/
theorem exists_perm_getElem? (hnode : node ∈ nodes) {i : ℕ} (hi : i < nodes.length) :
    ∃ values : List WorkerNode, values.Perm nodes ∧ values[i]? = some node := by
  refine ⟨(nodes.erase node).take i ++ node :: (nodes.erase node).drop i, ?_, ?_⟩
  · refine List.perm_middle.trans ?_
    rw [List.take_append_drop]
    exact (List.perm_cons_erase hnode).symm
  · have hlength : ((nodes.erase node).take i).length = i := by
      rw [List.length_take, List.length_erase_of_mem hnode]
      omega
    rw [List.getElem?_append_right hlength.le, hlength, Nat.sub_self, List.getElem?_cons_zero]

/-- **Orders that make the calls repeat a node**: each has it where the counter points to. -/
theorem exists_orders (hnodes : ∀ node ∈ nodes, node.schedulability = true) (hnode : node ∈ nodes)
    (k : ℕ) (counter : Int32) (hpos : 0 ≤ counter.toInt) :
    ∃ orders : List (List WorkerNode), orders.length = k ∧ (∀ values ∈ orders, Lists nodes values) ∧
      ∀ picks, Placed counter orders picks → picks = List.replicate k node := by
  induction k generalizing counter with
  | zero =>
    refine ⟨[], rfl, by simp, ?_⟩
    intro picks hplaced
    cases hplaced
    rfl
  | succ k ih =>
    by_cases hlt : counter.toInt < span nodes.length
    · have hle := span_le nodes.length
      obtain ⟨values, hperm, hvalues⟩ :=
        exists_perm_getElem? hnode (show counter.toInt.toNat < nodes.length by omega)
      have hlists := lists_of_perm hnodes hperm
      have hall : getSchedulableNodes values = values :=
        List.filter_eq_self.2 fun node hnode => hnodes node (hperm.mem_iff.1 hnode)
      have hnext := newIndex_bounds hpos hlt
      obtain ⟨orders, hlength, horders, hpicks⟩ := ih ((counter + 1) % Int32.ofNat nodes.length)
        (by rw [hnext]; exact Int.emod_nonneg _ (by omega))
      refine ⟨values :: orders, by simp [hlength], ?_, ?_⟩
      · simpa [hlists] using horders
      · intro picks hplaced
        cases hplaced with
        | @cons rounds _ counter' _ node' _ picks hplace hrest =>
          have hne : (getSchedulableNodes values).length ≠ 0 := by
            rw [hlists.length_eq]
            omega
          obtain ⟨hnode', hcounter'⟩ := place_spec hpos hne hplace
          rw [hall, hvalues, Option.some.injEq] at hnode'
          rw [hlists.length_eq, ← hnext, Int32.toInt_inj] at hcounter'
          subst hnode' hcounter'
          rw [hpicks picks hrest, List.replicate_succ]
    · -- the first call does not return
      refine ⟨List.replicate (k + 1) nodes, by simp, ?_, ?_⟩
      · intro values hvalues
        rw [List.eq_of_mem_replicate hvalues]
        exact lists_of_perm hnodes (List.Perm.refl nodes)
      · intro picks hplaced
        cases hplaced with
        | cons hplace _ =>
          have hlists := lists_of_perm hnodes (List.Perm.refl nodes)
          have hne : (getSchedulableNodes nodes).length ≠ 0 := by
            rw [hlists.length_eq]
            exact (List.length_pos_of_mem hnode).ne'
          have hlt' := lt_of_place hpos hne hplace
          rw [hlists.length_eq] at hlt'
          exact absurd hlt' hlt

/-- **Fairness.** As many calls as there are nodes return each node once whatever the orders of
their lists are, exactly if there is one node; and they do so where the orders are the same. -/
theorem fair_iff (h : Left nodes counter) :
    ((∀ orders, Orders nodes orders → Fair nodes counter orders) ↔ nodes.length = 1) ∧
      (nodes.length < 2 ^ 31 → ∀ orders, Orders nodes orders →
        (∀ v ∈ orders, ∀ w ∈ orders, getSchedulableNodes v = getSchedulableNodes w) →
          Fair nodes counter orders) := by
  have hne : 0 < nodes.length := List.length_pos_of_ne_nil h.ne_nil
  have hsame : nodes.length < 2 ^ 31 → ∀ orders, Orders nodes orders →
      (∀ v ∈ orders, ∀ w ∈ orders, getSchedulableNodes v = getSchedulableNodes w) →
        Fair nodes counter orders := by
    intro hlen orders horders heq
    have hfirst : 0 < orders.length := by
      rw [horders.length]
      exact hne
    have hmem := List.getElem_mem hfirst
    exact h.fair_of_eq hlen (horders.lists _ hmem) horders.length fun v hv => heq v hv _ hmem
  refine ⟨⟨?_, ?_⟩, hsame⟩
  · intro hall
    obtain ⟨node, hnode⟩ := List.exists_mem_of_ne_nil nodes h.ne_nil
    obtain ⟨tr, hrun, -⟩ := h.run
    obtain ⟨orders, hlength, hlists, hpicks⟩ :=
      exists_orders h.schedulable hnode nodes.length counter (nonneg_of_run hrun)
    obtain ⟨picks, hplaced, hperm⟩ := hall orders ⟨hlength, hlists⟩
    rw [hpicks picks hplaced] at hperm
    have hle := List.nodup_replicate.1 (hperm.nodup_iff.2 h.nodup)
    omega
  · intro hone orders horders
    refine hsame (by omega) orders horders ?_
    intro v hv w hw
    obtain ⟨node, hnode⟩ := List.length_eq_one_iff.1 (horders.length.trans hone)
    rw [hnode, List.mem_singleton] at hv hw
    rw [hv, hw]

def nodeA : WorkerNode := { name := "a", schedulability := true }

def nodeB : WorkerNode := { name := "b", schedulability := true }

theorem left_two : Left [nodeA, nodeB] 0 where
  nodup := by decide
  schedulable := by decide
  ne_nil := by decide
  run := ⟨[], .init rfl, by simp⟩

/-- Two calls that list two nodes in one order return both. -/
theorem fair_two : Fair [nodeA, nodeB] 0 [[nodeB, nodeA], [nodeB, nodeA]] := by
  refine (fair_iff left_two).2 (by decide) _ ⟨rfl, ?_⟩ (by simp)
  intro values hvalues
  rw [List.eq_of_mem_replicate (n := 2) hvalues]
  exact List.Perm.swap nodeA nodeB []

/-- **Two calls that return the same node**: the second lists the two nodes the other way round. -/
theorem placed_twice :
    Left [nodeA, nodeB] 0 ∧ Orders [nodeA, nodeB] [[nodeA, nodeB], [nodeB, nodeA]] ∧
      Placed 0 [[nodeA, nodeB], [nodeB, nodeA]] [nodeA, nodeA] := by
  refine ⟨left_two, ⟨rfl, ?_⟩, ?_⟩
  · intro values hvalues
    refine lists_of_perm left_two.schedulable ?_
    simp only [List.mem_cons, List.not_mem_nil, or_false] at hvalues
    rcases hvalues with rfl | rfl
    · exact List.Perm.refl _
    · exact List.Perm.swap nodeA nodeB []
  · have hfirst : place 1 0 [nodeA, nodeB] = .ok (some (some nodeA, 1)) := rfl
    have hsecond : place 1 1 [nodeB, nodeA] = .ok (some (some nodeA, 0)) := rfl
    exact .cons hfirst (.cons hsecond .nil)

end Dirigent.PlacementPolicy
