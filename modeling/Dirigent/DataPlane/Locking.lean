import Dirigent.DataPlane.Steps

/-!
# The lock of a function

Every call takes and releases the function's lock in pairs, so the lock knows at all times which
calls are in it (`guards_of_run`). A call in a write section is alone.
-/

namespace Dirigent.DataPlane

open Threads
open RWMutex (Mode Move)

/-- How a thread is in the function's lock. -/
def Thread.mode : Thread → Mode
  | .tryWarmStart pc =>
    match pc with
    | .pushBack | .incrementQueueDepth | .unlock => .writing
    | _ => .out
  | .decreaseInflight _ => .out
  | .sendMetricsToAutoscaler pc =>
    match pc with
    | .load | .clear | .unlock _ => .writing
    | _ => .out
  | .addEndpoints _ pc =>
    match pc with
    | .lock | .returned => .out
    | _ => .writing
  | .removeAllEndpoints pc =>
    match pc with
    | .lock | .returned => .out
    | _ => .writing
  | .drainEndpoints _ pc =>
    match pc with
    | .lock | .wait _ | .returned _ => .out
    | _ => .writing
  | .invocation pc =>
    match pc with
    | .select _ | .runlock _ _ => .reading
    | _ => .out

variable {m m' : FunctionMetadata} {i : ℕ} {t t' : Thread}

theorem Effect.move (h : Effect m i t m' t') : Move i m.mutex t.mode m'.mutex t'.mode := by
  cases h with
  | warmLock hl | loopLock hl | addLock hl | removeAllLock hl | drainLock hl => exact .lock hl
  | warmUnlock | loopStop | loopGoOn | addUnlock | removeAllUnlock | drainUnlock => exact .unlock
  | rlock hl => exact .rlock hl
  | crash | runlock => exact .runlock
  | append =>
    rw [FunctionMetadata.addToEndpointList_eq]
    exact .keep
  | _ => exact .keep

theorem mode_of_isCall (h : t.isCall = true) : t.mode = .out := by
  cases t <;> simp_all [Thread.isCall, Thread.mode]

variable {u : Thread} {ts : List Thread} {mutex : RWMutex}

theorem mode_of_mem_starts (h : u ∈ t.starts) : u.mode = .out := by
  obtain rfl := eq_of_mem_starts h
  rfl

/-- How the thread at each position is in the lock. -/
def modes (ts : List Thread) : ℕ → Mode := modeAt Thread.mode .out ts

theorem modes_of_getElem? (ht : ts[i]? = some t) : modes ts i = t.mode :=
  modeAt_of_getElem? ht

/-- Two threads in write sections are the same thread. -/
theorem eq_of_writing (hg : mutex.Guards (modes ts)) (ht : ts[i]? = some t)
    (hw : t.mode = .writing) (hu : u ∈ ts) (huw : u.mode = .writing) : u = t := by
  obtain ⟨j, hj⟩ := List.mem_iff_getElem?.1 hu
  have hij : j = i := hg.eq_of_writing ((modes_of_getElem? hj).trans huw)
    ((modes_of_getElem? ht).trans hw)
  exact Option.some.inj (hj.symm.trans (hij ▸ ht))

theorem not_writing_of_ne (hg : mutex.Guards (modes ts)) (ht : ts[i]? = some t)
    (hw : t.mode = .writing) {j : ℕ} (hji : j ≠ i) (hu : ts[j]? = some u) :
    u.mode ≠ .writing := fun huw =>
  hji (hg.eq_of_writing ((modes_of_getElem? hu).trans huw) ((modes_of_getElem? ht).trans hw))

/-- **Mutual exclusion.** In every run the lock knows the calls that are in it. -/
theorem guards_of_run {tr : List (Machine.Step _ _)} {s : Pool FunctionMetadata Thread}
    (h : calls.machine.Run tr s) : s.shared.mutex.Guards (modes s.threads) := by
  refine h.invariant_state (I := fun s => s.shared.mutex.Guards (modes s.threads)) ?_ ?_
  · rintro ⟨m, ts⟩ ⟨⟨p, rfl⟩, rfl⟩
    exact RWMutex.guards_init
  · intro s e s' hg hn
    rcases calls_next hn with ⟨t, -, ht, rfl⟩ | ⟨i, c, t, m', t', -, ht, heff, rfl⟩
    · show s.shared.mutex.Guards (modes (s.threads ++ [t]))
      rw [modes, modeAt_append _ _ (mode_of_isCall ht)]
      exact hg
    · show m'.mutex.Guards (modes (advance s.threads i t' t.starts))
      rw [modes, modeAt_advance _ _ ht t' fun u hu => mode_of_mem_starts hu]
      refine hg.move ?_
      rw [modes_of_getElem? ht]
      exact heff.move

end Dirigent.DataPlane
