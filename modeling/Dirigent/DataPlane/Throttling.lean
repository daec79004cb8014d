import Dirigent.DataPlane.Requests

/-!
# The concurrency limit of an endpoint

Every endpoint has a channel of tokens, full when the endpoint is created. A request takes a token
before it goes to the endpoint and puts it back at the very end of `giveBackCCCapacity`, by which
time the endpoint may have been drained and removed from the list. Between the two it `holds` the
token.

A step that moves a token moves it between the channel and the thread that makes the step
(`Effect.capacity`), so the tokens in the channel and the requests that hold one are together as
many as the channel has places.

* **`tokens_conserved`** — this, for every endpoint in every reachable state; so the requests that
  hold a token are never more than the limit, and none of them waits to put its token back.
-/

namespace Dirigent.DataPlane

open Threads

/-- A request that has taken a token of `e` and has not put it back. -/
def Thread.holdsToken (e : ℕ) : Thread → Bool
  | .invocation pc =>
    match pc with
    | .addInFlight e' | .proxying e' | .giveBack e' | .loadDrained e' _ | .loadCallback e'
    | .sendCallback e' | .returnToken e' | .blocked e' => e' = e
    | .decrementQueueDepth endpoint => endpoint = some e
    | _ => false
  | _ => false

variable {m m' : FunctionMetadata} {i e : ℕ} {t t' : Thread}

/-- A token is in the channel or with a request. -/
theorem Effect.capacity (h : Effect m i t m' t') (he : e < m.allocated) :
    (m'.heap e).capacity + (if t'.holdsToken e then 1 else 0) =
      (m.heap e).capacity + (if t.holdsToken e then 1 else 0) := by
  cases h with
  | append => rw [addToEndpointList_heap _ _ he]; rfl
  | @takeToken k e' hpos =>
    rcases eq_or_ne e e' with rfl | hne
    · rw [modify_heap_self]
      simp only [Thread.holdsToken, decide_true, if_true, Bool.false_eq_true, if_false]
      omega
    · rw [modify_heap_ne _ _ hne]
      simp [Thread.holdsToken, hne.symm]
  | @returnToken e' hroom =>
    rcases eq_or_ne e e' with rfl | hne
    · rw [modify_heap_self]
      simp [Thread.holdsToken]
    · rw [modify_heap_ne _ _ hne]
      simp [Thread.holdsToken, hne.symm]
  | mark | markAgain | makeCallback | signal | pass | giveBack | sendCallback =>
    exact congrArg₂ (· + ·) (modify_field UpstreamEndpoint.capacity fun _ => rfl) rfl
  | addInFlight =>
    refine congrArg₂ (· + ·) (modify_field UpstreamEndpoint.capacity fun _ => rfl) ?_
    simp [Thread.holdsToken]
  | forward => simp [Thread.holdsToken]
  | _ => rfl

theorem Effect.holdsToken (h : Effect m i t m' t') (he : t'.holdsToken e = true) :
    t.holdsToken e = true ∨ t.selected e = true := by
  cases h with
  | takeToken => exact .inr he
  | addInFlight =>
    obtain rfl := Option.some.inj (of_decide_eq_true he)
    exact .inl (decide_eq_true rfl)
  | forward =>
    obtain rfl := of_decide_eq_true he
    exact .inl (decide_eq_true rfl)
  | giveUp => simp [Thread.holdsToken] at he
  | returnToken => cases he
  | _ => exact .inl he

theorem Effect.sandboxParallelism_eq (h : Effect m i t m' t') :
    m'.sandboxParallelism = m.sandboxParallelism := by
  cases h with
  | append => rw [FunctionMetadata.addToEndpointList_eq]
  | _ => rfl

theorem not_holdsToken_of_isCall (h : t.isCall = true) : t.holdsToken e = false := by
  cases t with
  | invocation pc =>
    obtain rfl := of_decide_eq_true h
    rfl
  | _ => rfl

theorem not_holdsToken_of_mem_starts {u : Thread} (h : u ∈ t.starts) : u.holdsToken e = false := by
  obtain rfl := eq_of_mem_starts h
  rfl

/-- The tokens of the endpoints: those that exist have `p`, and no others are held. -/
structure Throttled (p : ℕ) (s : Pool FunctionMetadata Thread) : Prop where
  limit : s.shared.sandboxParallelism = p
  tokens : ∀ e < s.shared.allocated,
    (s.shared.heap e).capacity + s.threads.countP (Thread.holdsToken e) = p
  held : ∀ t ∈ s.threads, ∀ e, t.holdsToken e = true → e < s.shared.allocated

theorem Throttled.step {p : ℕ} {ts : List Thread} (h : Throttled p ⟨m, ts⟩) (hb : Bounded ⟨m, ts⟩)
    (ht : ts[i]? = some t) (heff : Effect m i t m' t') :
    Throttled p ⟨m', advance ts i t' t.starts⟩ := by
  have hle := heff.allocated_le
  have hmem := List.mem_of_getElem? ht
  -- the holders after the step held a token or had selected an endpoint
  have hheld : ∀ u ∈ advance ts i t' t.starts, ∀ e, u.holdsToken e = true →
      e < m.allocated := by
    intro u hu e he
    rcases mem_of_mem_advance hu with rfl | hsame | hu
    · rcases heff.holdsToken he with he | hsel
      · exact h.held t hmem e he
      · refine hb.held t hmem e (.inl ?_)
        rw [Thread.isAssigned, hsel, Bool.true_or]
    · exact h.held u hsame e he
    · rw [not_holdsToken_of_mem_starts hu] at he
      cases he
  refine ⟨heff.sandboxParallelism_eq.trans h.limit, fun e he => ?_, fun u hu e hholds =>
    lt_of_lt_of_le (hheld u hu e hholds) hle⟩
  have hstarts : t.starts.countP (Thread.holdsToken e) = 0 := by
    rw [List.countP_eq_zero]
    intro u hu hholds
    rw [not_holdsToken_of_mem_starts hu] at hholds
    cases hholds
  have hcount := countP_advance (Thread.holdsToken e) ht t' t.starts
  rw [hstarts] at hcount
  by_cases hold : e < m.allocated
  · have htokens := h.tokens e hold
    have hmoved := heff.capacity hold
    change (m'.heap e).capacity + (advance ts i t' t.starts).countP _ = p
    change (m.heap e).capacity + ts.countP _ = p at htokens
    omega
  · -- a new endpoint has all its tokens
    rcases heff.allocated with heq | ⟨es, rfl, rfl⟩
    · exact absurd (heq ▸ he) hold
    · obtain ⟨info, hnew⟩ := addToEndpointList_heap_new _ es (not_lt.1 hold) he
      have hnone : (advance ts i t' []).countP (Thread.holdsToken e) = 0 := by
        rw [List.countP_eq_zero]
        exact fun u hu hholds => hold (hheld u hu e hholds)
      change ((m.addToEndpointList es).heap e).capacity + (advance ts i t' []).countP _ = p
      rw [hnew, hnone]
      exact h.limit

/-- **Tokens are conserved**: in every reachable state the tokens in the channel of an endpoint and
the requests that hold one of them are together as many as the limit says. So at most that many
requests use the endpoint, and putting a token back does not block. -/
theorem tokens_conserved {tr : List (Machine.Step _ _)} {s : Pool FunctionMetadata Thread}
    (h : calls.machine.Run tr s) : ∀ e < s.shared.allocated,
      (s.shared.heap e).capacity + s.threads.countP (Thread.holdsToken e) =
        s.shared.sandboxParallelism ∧
      s.threads.countP (Thread.holdsToken e) ≤ s.shared.sandboxParallelism ∧
      (Thread.invocation (.returnToken e) ∈ s.threads →
        (s.shared.returnToken e).isSome = true) := by
  have hthrottled : ∃ p, Throttled p s := by
    refine h.invariant (I := fun _ s => ∃ p, Throttled p s) (G := fun _ => True) ?_ ?_
      fun _ _ => trivial
    · rintro ⟨m, ts⟩ ⟨⟨p, rfl⟩, rfl⟩
      exact ⟨p, rfl, fun e he => absurd he (Nat.not_lt_zero e), List.forall_mem_nil _⟩
    · rintro tr s ev s' hrun ⟨p, hp⟩ - hn
      refine ⟨p, ?_⟩
      rcases calls_next hn with ⟨t, -, ht, rfl⟩ | ⟨i, c, t, m', t', -, ht, heff, rfl⟩
      · refine ⟨hp.limit, fun e he => ?_, forall_mem_concat hp.held fun e hholds => ?_⟩
        · rw [List.countP_append, List.countP_singleton, not_holdsToken_of_isCall ht]
          exact hp.tokens e he
        · rw [not_holdsToken_of_isCall ht] at hholds
          cases hholds
      · exact hp.step (bounded_of_run hrun) ht heff
  obtain ⟨p, hp⟩ := hthrottled
  intro e he
  have htokens := hp.tokens e he
  rw [hp.limit]
  refine ⟨htokens, by omega, fun hmem => ?_⟩
  have hpos : 0 < s.threads.countP (Thread.holdsToken e) :=
    List.countP_pos_iff.2 ⟨_, hmem, decide_eq_true rfl⟩
  have hroom : (s.shared.heap e).capacity < s.shared.sandboxParallelism := by
    rw [hp.limit]
    omega
  rw [FunctionMetadata.returnToken, if_pos hroom]
  rfl

/-- A request has the only token of a sandbox. -/
theorem tokens_conserved_of_invocation : ∃ tr s, calls.machine.Run tr s ∧
    s.shared.allocated = 1 ∧ s.threads.countP (Thread.holdsToken 0) = 1 ∧
    (s.shared.heap 0).capacity + s.threads.countP (Thread.holdsToken 0) =
      s.shared.sandboxParallelism := by
  obtain ⟨tr, s, hrun, hone, hholds⟩ : ∃ tr s, calls.machine.Run tr s ∧ s.shared.allocated = 1 ∧
      s.threads.countP (Thread.holdsToken 0) = 1 :=
    Machine.exists_run_of_play (.start (.addEndpoints [sandboxA] .lock) :: runs 0 5 ++
      .start (.invocation .incrementQueueDepth) :: runs 1 2 ++ .run 1 (.endpoint 0) :: runs 1 2)
      fresh_init (by decide +kernel)
  exact ⟨tr, s, hrun, hone, hholds, (tokens_conserved hrun 0 (by omega)).1⟩

end Dirigent.DataPlane
