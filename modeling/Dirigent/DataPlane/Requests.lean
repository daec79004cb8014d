import Dirigent.DataPlane.Locking

/-!
# Requests on their endpoints

Where a request is with respect to an endpoint `e`: it has `selected` it but is not counted there,
it `uses` it, or it has counted itself out as the last one and may still signal the end of a drain
(`isLast`). The counter `InFlight` of an endpoint is the number of requests that use it
(`inFlight_of_run`).

An endpoint object, once created, stays where it is and keeps its ID: the pointers that threads
hold are valid (`bounded_of_run`).
-/

namespace Dirigent.DataPlane

open Threads

namespace Thread

/-- A request that has picked `e` and is not counted there yet. -/
def selected (e : ℕ) : Thread → Bool
  | .invocation (.runlock _ endpoint) => endpoint = some e
  | .invocation (.waitForCapacity _ e') => e' = e
  | .invocation (.addInFlight e') => e' = e
  | _ => false

/-- A request that is counted at `e`. -/
def uses (e : ℕ) : Thread → Bool
  | .invocation (.decrementQueueDepth endpoint) => endpoint = some e
  | .invocation (.proxying e') => e' = e
  | .invocation (.giveBack e') => e' = e
  | _ => false

/-- A request between its selection of `e` and its `giveBackCCCapacity`. -/
def isAssigned (e : ℕ) (t : Thread) : Bool := t.selected e || t.uses e

/-- A request that has left `e` as the last one, and may still signal this. -/
def isLast (e : ℕ) : Thread → Bool
  | .invocation (.loadDrained e' endpointInflight) => e' = e ∧ endpointInflight = 0
  | .invocation (.loadCallback e') => e' = e
  | .invocation (.sendCallback e') => e' = e
  | _ => false

end Thread

/-- What a drain remembers; nothing before it has the lock. -/
def Drain.record : Drain → Draining
  | .lock => {}
  | .mark d | .makeCallback _ d | .loadInFlight _ d | .signal _ d => d
  | .remove d | .storeCount d | .unlock d | .wait d | .returned d => d

namespace Thread

/-- The endpoints that a drain has dealt with. -/
def covered : Thread → List ℕ
  | .drainEndpoints _ pc => pc.record.covered
  | _ => []

/-- The endpoints that a drain has yet to look at. -/
def todo : Thread → List ℕ
  | .drainEndpoints _ pc => pc.record.todo
  | _ => []

/-- The endpoint that a drain is at work on. -/
def current : Thread → List ℕ
  | .drainEndpoints _ (.makeCallback e _) => [e]
  | .drainEndpoints _ (.loadInFlight e _) => [e]
  | _ => []

/-- `e` is one of the endpoints that the thread works with. -/
def PointsTo (t : Thread) (e : ℕ) : Prop :=
  t.isAssigned e = true ∨ e ∈ t.todo ∨ e ∈ t.current ∨ e ∈ t.covered

end Thread

variable {m m' : FunctionMetadata} {i e : ℕ} {t t' : Thread}

theorem pointsTo_of_uses (h : t.uses e = true) : t.PointsTo e :=
  .inl (by rw [Thread.isAssigned, h, Bool.or_true])

/-! ## What a step does to the endpoint objects and the pointers -/

variable {e' : ℕ} {tr : List (Machine.Step _ _)} {s : Pool FunctionMetadata Thread}

theorem modify_heap_ne (m : FunctionMetadata) (f : UpstreamEndpoint → UpstreamEndpoint)
    (h : e ≠ e') : (m.modify e' f).heap e = m.heap e := Function.update_of_ne h _ _

theorem modify_heap_self (m : FunctionMetadata) (e : ℕ)
    (f : UpstreamEndpoint → UpstreamEndpoint) : (m.modify e f).heap e = f (m.heap e) :=
  Function.update_self _ _ _

theorem modify_field {α : Type*} (g : UpstreamEndpoint → α)
    {f : UpstreamEndpoint → UpstreamEndpoint} (hf : ∀ ep, g (f ep) = g ep) :
    g ((m.modify e' f).heap e) = g (m.heap e) := by
  rcases eq_or_ne e e' with rfl | hne
  · rw [modify_heap_self, hf]
  · rw [modify_heap_ne _ _ hne]

theorem addToEndpointList_heap (m : FunctionMetadata) (es : List EndpointInfo)
    (he : e < m.allocated) : (m.addToEndpointList es).heap e = m.heap e := by
  rw [FunctionMetadata.addToEndpointList_eq]
  simp [FunctionMetadata.heapWith, he]

theorem addToEndpointList_heap_new (m : FunctionMetadata) (es : List EndpointInfo)
    (he : m.allocated ≤ e) (he' : e < (m.addToEndpointList es).allocated) :
    ∃ info, (m.addToEndpointList es).heap e = m.newEndpoint info := by
  rw [FunctionMetadata.addToEndpointList_eq] at he' ⊢
  have hlt : e - m.allocated < es.length := by
    simp only at he'
    omega
  exact ⟨es[e - m.allocated], by simp [FunctionMetadata.heapWith, he.not_gt, hlt]⟩

theorem Effect.allocated (h : Effect m i t m' t') :
    m'.allocated = m.allocated ∨
      ∃ es, t = .addEndpoints es .append ∧ m' = m.addToEndpointList es := by
  cases h with
  | append => exact .inr ⟨_, rfl, rfl⟩
  | _ => exact .inl rfl

theorem Effect.allocated_le (h : Effect m i t m' t') : m.allocated ≤ m'.allocated := by
  rcases h.allocated with heq | ⟨es, -, rfl⟩
  · exact heq.ge
  · rw [FunctionMetadata.addToEndpointList_eq]
    exact Nat.le_add_right _ _

theorem Effect.id_eq (h : Effect m i t m' t') (he : e < m.allocated) :
    (m'.heap e).id = (m.heap e).id := by
  cases h with
  | append => rw [addToEndpointList_heap _ _ he]
  | mark | markAgain | makeCallback | signal | pass | takeToken | addInFlight | giveBack |
    sendCallback | returnToken => exact modify_field UpstreamEndpoint.id fun _ => rfl
  | _ => rfl

/-- The list after a step: old endpoints, and new ones. -/
theorem Effect.mem_upstreamEndpoints (h : Effect m i t m' t') (he : e ∈ m'.upstreamEndpoints) :
    e ∈ m.upstreamEndpoints ∨ (m.allocated ≤ e ∧ e < m'.allocated) := by
  cases h with
  | append =>
    rw [FunctionMetadata.addToEndpointList_eq] at he ⊢
    refine (List.mem_append.1 he).imp_right fun hnew => ?_
    obtain ⟨hle, hlt⟩ := List.mem_range'_1.1 hnew
    exact ⟨hle, hlt⟩
  | removeAll => cases he
  | remove => exact .inl ((FunctionMetadata.removeByURL_sublist _ _ _).subset he)
  | _ => exact .inl he

/-- A request selects an endpoint of the list, under the read lock. -/
theorem Effect.selected (h : Effect m i t m' t') (he : t'.selected e = true) :
    t.selected e = true ∨ (e ∈ m.upstreamEndpoints ∧ t.mode = .reading) := by
  cases h with
  | select hmem =>
    obtain rfl := Option.some.inj (of_decide_eq_true he)
    exact .inr ⟨hmem, rfl⟩
  | runlock =>
    obtain rfl := of_decide_eq_true he
    exact .inl (decide_eq_true rfl)
  | selectNone | timeout | addInFlight => simp [Thread.selected] at he
  | _ => exact .inl he

theorem Effect.uses (h : Effect m i t m' t') (he : t'.uses e = true) :
    t.uses e = true ∨ t.selected e = true := by
  cases h with
  | addInFlight =>
    obtain rfl := Option.some.inj (of_decide_eq_true he)
    exact .inr (decide_eq_true rfl)
  | forward =>
    obtain rfl := of_decide_eq_true he
    exact .inl (decide_eq_true rfl)
  | giveUp | giveBack => simp [Thread.uses] at he
  | _ => exact .inl he

theorem todo_mark (es : List EndpointInfo) (d : Draining) :
    (Thread.drainEndpoints es (.mark d)).todo = d.todo := rfl

theorem Effect.todo (h : Effect m i t m' t') (he : e ∈ t'.todo) :
    e ∈ t.todo ∨ e ∈ m.upstreamEndpoints := by
  cases h with
  | drainLock => exact .inr he
  | mark hd | markAgain hd | passOver hd =>
    left
    rw [todo_mark, hd]
    exact List.mem_cons_of_mem _ he
  | _ => exact .inl he

theorem Effect.current (h : Effect m i t m' t') (he : e ∈ t'.current) :
    e ∈ t.current ∨ e ∈ t.todo := by
  cases h with
  | mark hd =>
    right
    obtain rfl := List.mem_singleton.1 he
    rw [todo_mark, hd]
    exact List.mem_cons_self
  | markAgain | passOver | seeUsed | seeUnused => cases he
  | _ => exact .inl he

/-- A drain deals with an endpoint when it loads its counter, or when it finds it marked. -/
theorem Effect.covered (h : Effect m i t m' t') (he : e ∈ t'.covered) :
    e ∈ t.covered ∨ (∃ es d, t = .drainEndpoints es (.loadInFlight e d)) ∨
      (∃ es d todo, t = .drainEndpoints es (.mark d) ∧ d.todo = e :: todo ∧
        isDrained es (m.heap e) = true ∧ (m.heap e).drained = true) := by
  cases h with
  | drainLock => cases he
  | seeUsed | seeUnused =>
    rcases List.mem_cons.1 he with rfl | he
    · exact .inr (.inl ⟨_, _, rfl⟩)
    · exact .inl he
  | markAgain hd hid hdr =>
    rcases List.mem_cons.1 he with rfl | he
    · exact .inr (.inr ⟨_, _, _, rfl, hd, hid, hdr⟩)
    · exact .inl he
  | _ => exact .inl he

theorem Effect.pointsTo (h : Effect m i t m' t') (he : t'.PointsTo e) :
    t.PointsTo e ∨ e ∈ m.upstreamEndpoints := by
  rcases he with ha | htodo | hcur | hcov
  · rw [Thread.isAssigned, Bool.or_eq_true] at ha
    rcases ha with hs | hu
    · rcases h.selected hs with hs | ⟨hmem, -⟩
      · exact .inl (.inl (by simp [Thread.isAssigned, hs]))
      · exact .inr hmem
    · refine .inl (.inl ?_)
      rcases h.uses hu with hu | hs
      · simp [Thread.isAssigned, hu]
      · simp [Thread.isAssigned, hs]
  · exact (h.todo htodo).imp_left fun he => .inr (.inl he)
  · refine .inl ?_
    rcases h.current hcur with he | he
    · exact .inr (.inr (.inl he))
    · exact .inr (.inl he)
  · refine .inl ?_
    rcases h.covered hcov with he | ⟨es, d, rfl⟩ | ⟨es, d, todo, rfl, hd, -, -⟩
    · exact .inr (.inr (.inr he))
    · exact .inr (.inr (.inl List.mem_cons_self))
    · refine .inr (.inl ?_)
      rw [todo_mark, hd]
      exact List.mem_cons_self

/-! ## Valid pointers -/

/-- All pointers lead to endpoints that exist, and no endpoint is listed twice. -/
structure Bounded (s : Pool FunctionMetadata Thread) : Prop where
  listed : ∀ e ∈ s.shared.upstreamEndpoints, e < s.shared.allocated
  held : ∀ t ∈ s.threads, ∀ e, t.PointsTo e → e < s.shared.allocated
  nodup : s.shared.upstreamEndpoints.Nodup

theorem Effect.nodup (h : Effect m i t m' t') (hb : ∀ e ∈ m.upstreamEndpoints, e < m.allocated)
    (hnd : m.upstreamEndpoints.Nodup) : m'.upstreamEndpoints.Nodup := by
  cases h with
  | append =>
    rw [FunctionMetadata.addToEndpointList_eq]
    refine List.Nodup.append hnd List.nodup_range' ?_
    intro e he hnew
    exact absurd (hb e he) (not_lt.2 (List.mem_range'_1.1 hnew).1)
  | removeAll => exact List.nodup_nil
  | remove => exact hnd.sublist (FunctionMetadata.removeByURL_sublist _ _ _)
  | _ => exact hnd

theorem not_pointsTo_of_isCall (h : t.isCall = true) : ¬ t.PointsTo e := by
  cases t <;> simp_all [Thread.isCall, Thread.PointsTo, Thread.isAssigned, Thread.selected,
    Thread.uses, Thread.todo, Thread.current, Thread.covered, Drain.record]

theorem not_pointsTo_of_mem_starts {u : Thread} (h : u ∈ t.starts) : ¬ u.PointsTo e := by
  obtain rfl := eq_of_mem_starts h
  simp [Thread.PointsTo, Thread.isAssigned, Thread.selected, Thread.uses, Thread.todo,
    Thread.current, Thread.covered]

theorem bounded_of_run (h : calls.machine.Run tr s) : Bounded s := by
  refine h.invariant_state ?_ ?_
  · rintro ⟨m, ts⟩ ⟨⟨p, rfl⟩, rfl⟩
    exact ⟨by simp [newFunctionMetadata], by simp, List.nodup_nil⟩
  · intro s e s' hs hn
    rcases calls_next hn with ⟨t, -, ht, rfl⟩ | ⟨i, c, t, m', t', -, ht, heff, rfl⟩
    · exact ⟨hs.listed, forall_mem_concat hs.held
        fun e he => absurd he (not_pointsTo_of_isCall ht), hs.nodup⟩
    · have hle := heff.allocated_le
      refine ⟨fun e he => ?_, fun u hu e he => ?_, heff.nodup hs.listed hs.nodup⟩
      · rcases heff.mem_upstreamEndpoints he with he | ⟨-, hlt⟩
        · exact lt_of_lt_of_le (hs.listed e he) hle
        · exact hlt
      · rcases mem_of_mem_advance hu with rfl | hsame | hu
        · rcases heff.pointsTo he with he | he
          · exact lt_of_lt_of_le (hs.held t (List.mem_of_getElem? ht) e he) hle
          · exact lt_of_lt_of_le (hs.listed e he) hle
        · exact lt_of_lt_of_le (hs.held u hsame e he) hle
        · exact absurd he (not_pointsTo_of_mem_starts hu)

/-! ## The counter of an endpoint -/

theorem Effect.inFlight (h : Effect m i t m' t') (he : e < m.allocated) :
    (m'.heap e).inFlight + (if t.uses e then 1 else 0) =
      (m.heap e).inFlight + (if t'.uses e then 1 else 0) := by
  cases h with
  | append => rw [addToEndpointList_heap _ _ he]; rfl
  | @addInFlight e' | @giveBack e' =>
    rcases eq_or_ne e e' with rfl | hne
    · rw [modify_heap_self]
      simp [Thread.uses]
    · rw [modify_heap_ne _ _ hne]
      simp [Thread.uses, hne.symm]
  | mark | markAgain | makeCallback | signal | pass | takeToken | sendCallback | returnToken =>
    exact congrArg₂ (· + ·) (modify_field UpstreamEndpoint.inFlight fun _ => rfl) rfl
  | forward => simp [Thread.uses]
  | _ => rfl

/-- **`InFlight` counts.** The counter of an endpoint is the number of requests that use it. -/
theorem inFlight_of_run (h : calls.machine.Run tr s) :
    ∀ e < s.shared.allocated, (s.shared.heap e).inFlight = s.threads.countP (Thread.uses e) := by
  refine h.invariant (I := fun _ s => ∀ e < s.shared.allocated,
    (s.shared.heap e).inFlight = s.threads.countP (Thread.uses e)) (G := fun _ => True) ?_ ?_
    fun _ _ => trivial
  · rintro ⟨m, ts⟩ ⟨⟨p, rfl⟩, rfl⟩ e he
    exact absurd he (Nat.not_lt_zero e)
  · intro tr s ev s' hrun hs _ hn
    have hb := bounded_of_run hrun
    rcases calls_next hn with ⟨t, -, ht, rfl⟩ | ⟨i, c, t, m', t', -, ht, heff, rfl⟩
    · intro e he
      have huses : t.uses e = false := by
        by_contra hu
        exact not_pointsTo_of_isCall ht (pointsTo_of_uses (Bool.eq_true_of_not_eq_false hu))
      rw [List.countP_append, List.countP_singleton, huses]
      exact hs e he
    · intro e he
      have hstarts : t.starts.countP (Thread.uses e) = 0 := by
        rw [List.countP_eq_zero]
        intro u hu huses
        exact not_pointsTo_of_mem_starts hu (pointsTo_of_uses huses)
      have hcount := countP_advance (Thread.uses e) ht t' t.starts
      rw [hstarts] at hcount
      by_cases hold : e < s.shared.allocated
      · have heq := heff.inFlight hold
        have hprev := hs e hold
        show (m'.heap e).inFlight = (advance s.threads i t' t.starts).countP (Thread.uses e)
        split_ifs at heq hcount <;> omega
      · -- a new endpoint: nobody knows it yet
        rcases heff.allocated with heq | ⟨es, rfl, rfl⟩
        · exact absurd (heq ▸ he) hold
        · obtain ⟨info, hnew⟩ := addToEndpointList_heap_new _ es (not_lt.1 hold) he
          have hzero : (advance s.threads i t' []).countP (Thread.uses e) = 0 := by
            rw [List.countP_eq_zero]
            intro u hu huses
            have hpt := pointsTo_of_uses huses
            rcases mem_of_mem_advance hu with rfl | hsame | hu
            · rcases heff.pointsTo hpt with hpt | hmem
              · exact hold (hb.held _ (List.mem_of_getElem? ht) e hpt)
              · exact hold (hb.listed e hmem)
            · exact hold (hb.held u hsame e hpt)
            · cases hu
          show ((s.shared.addToEndpointList es).heap e).inFlight = _
          rw [hnew]
          show (0 : ℤ) = (advance s.threads i t' []).countP (Thread.uses e)
          rw [hzero]
          rfl

/-- **Nobody is miscounted**: the counter is never negative, and zero exactly if nobody uses the
endpoint. -/
theorem inFlight_eq_zero_iff {tr : List (Machine.Step _ _)} {s : Pool FunctionMetadata Thread}
    (h : calls.machine.Run tr s) {e : ℕ} (he : e < s.shared.allocated) :
    0 ≤ (s.shared.heap e).inFlight ∧
      ((s.shared.heap e).inFlight = 0 ↔ ∀ t ∈ s.threads, t.uses e = false) := by
  rw [inFlight_of_run h e he]
  refine ⟨Int.natCast_nonneg _, ?_⟩
  rw [Int.natCast_eq_zero, List.countP_eq_zero]
  simp

/-- A sandbox comes up, and a request is counted there. -/
theorem inFlight_eq_zero_iff_one : ∃ tr s, calls.machine.Run tr s ∧
    (s.shared.heap 0).inFlight = 1 ∧ ¬ ∀ t ∈ s.threads, t.uses 0 = false := by
  obtain ⟨tr, s, hrun, hallocated, hone⟩ : ∃ tr s, calls.machine.Run tr s ∧ 0 < s.shared.allocated ∧
      (s.shared.heap 0).inFlight = 1 :=
    Machine.exists_run_of_play (.start (.addEndpoints [sandboxA] .lock) :: runs 0 5 ++
      .start (.invocation .incrementQueueDepth) :: runs 1 2 ++ .run 1 (.endpoint 0) :: runs 1 3)
      fresh_init (by decide +kernel)
  refine ⟨tr, s, hrun, hone, fun hnone => ?_⟩
  have hzero := (inFlight_eq_zero_iff hrun hallocated).2.2 hnone
  omega

end Dirigent.DataPlane
