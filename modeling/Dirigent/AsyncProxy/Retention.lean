import Dirigent.AsyncProxy.Recovery

/-!
# How long responses are kept

`startGarbageCollector` is to remove the responses that are more than a minute old. It compares a
difference in seconds with the nanoseconds of a minute, and a response that is recorded when the
attempts are used up has no time. So a pass removes the responses of that kind, however young they
are, and no other, however old.

* `timedProxy` — the proxy with a clock that does not go back, and with the times at which responses
  were recorded.
* `lookup_collect_eq_none_iff` — what a pass removes.
* **`retention_iff`** — responses are kept for a minute and removed when they are older, exactly if
  at each pass no function's response is older and no other is younger.
* `exists_vanished` — a pass removes a response that is a second old and keeps one that is an hour
  old.
-/

namespace Dirigent.AsyncProxy

/-! ## Time -/

/-- Nanoseconds. -/
def second : ℤ := 1000000000

def minute : ℤ := 60 * second

/-- What the event gets from `time.Now().Unix()` is the time `t`. -/
def Event.readsClock (t : ℤ) : Event → Bool
  | .run _ (.returned _ now) | .collect now => decide (now = t / second)
  | _ => true

def Event.isCollect : Event → Bool
  | .collect _ => true
  | _ => false

structure Timed where
  proxy : Proxy
  time : ℤ
  /-- When the response with the code that is in `Responses` was recorded. -/
  recordedAt : Bytes → ℤ

/-- A response that is loaded was recorded by an earlier process, at its timestamp. -/
def recordedAfter (s : Proxy) (t : ℤ) (recordedAt : Bytes → ℤ) : Event → Bytes → ℤ
  | .run i _ => match s.threads[i]? with
    | some (.exhausted r) | some (.record r _ _) => Function.update recordedAt r.code t
    | _ => recordedAt
  | .recover _ => match s.recovery with
    | .readResponses [] rs =>
      rs.foldl (fun f r => Function.update f r.code (r.timestamp * second)) recordedAt
    | _ => recordedAt
  | _ => recordedAt

/-- The proxy where every event happens at a time. -/
def timedProxy (allowedRetries : ℤ) : Machine Timed (ℤ × Event) where
  init s := (asyncProxy allowedRetries).init s.proxy
  next s te :=
    if s.time ≤ te.1 ∧ te.2.readsClock te.1 = true then
      (next allowedRetries s.proxy te.2).map fun p =>
        ⟨p, te.1, recordedAfter s.proxy te.1 s.recordedAt te.2⟩
    else none

/-! ## The properties -/

/-- A response stays, or a newer one takes its place, until it is a minute old or the process stops.
-/
def Retains (st : Machine.Step Timed (ℤ × Event)) : Prop :=
  st.event.2.isCrash = false → ∀ code, (st.src.proxy.responses.lookup code).isSome = true →
    st.event.1 < st.src.recordedAt code + minute →
      (st.dst.proxy.responses.lookup code).isSome = true

/-- A pass of the garbage collector removes what is more than a minute old. -/
def CollectsOld (st : Machine.Step Timed (ℤ × Event)) : Prop :=
  st.event.2.isCollect = true → ∀ code, st.src.recordedAt code + minute < st.event.1 →
    st.dst.proxy.responses.lookup code = none

/-- The condition: at a pass, the responses without a time are at least a minute old, and the others
at most. -/
def Timely (st : Machine.Step Timed (ℤ × Event)) : Prop :=
  st.event.2.isCollect = true → ∀ e ∈ st.src.proxy.responses.entries,
    if e.2.timestamp = zeroTime then st.src.recordedAt e.1 + minute ≤ st.event.1
    else st.event.1 ≤ st.src.recordedAt e.1 + minute

instance (st : Machine.Step Timed (ℤ × Event)) : Decidable (Timely st) :=
  inferInstanceAs (Decidable (_ → _))

/-! ## Timestamps -/

/-- A response has the zero time, or one that the clock has shown. -/
def Stamped (s : Proxy) : Prop :=
  ∀ code r, s.responses.lookup code = some r → r.timestamp = zeroTime ∨ inClock r.timestamp = true

variable {allowedRetries now : ℤ} {s s' : Proxy} {e : Event} {code : Bytes} {r : BufferedResponse}
  {m : Responses}

theorem Next.stamped (h : Next allowedRetries s e s') (hs : s.Sound allowedRetries)
    (hstamped : Stamped s) : Stamped s' := by
  -- what a goroutine records
  have hinsert : ∀ {code' : Bytes} {r' : BufferedResponse},
      r'.timestamp = zeroTime ∨ inClock r'.timestamp = true → ∀ code r,
        (s.responses.insert code' r').lookup code = some r →
          r.timestamp = zeroTime ∨ inClock r.timestamp = true := by
    intro code' r' hr' code r hr
    by_cases hcode : code = code'
    · rw [hcode, AList.lookup_insert] at hr
      rwa [← Option.some.inj hr]
    · rw [AList.lookup_insert_ne hcode] at hr
      exact hstamped code r hr
  intro code r hr
  cases h with
  | crash => cases hr
  | recover h => exact (h.lookup rfl hs hr).elim (hstamped code r) .inr
  | submit | read => exact hstamped code r hr
  | run ht hstep h =>
    cases h with
    | exhausted => exact hinsert (.inl rfl) code r hr
    | record => exact hinsert (.inr (hs.threads _ (List.mem_of_getElem? ht)).2.2) code r hr
    | _ => exact hstamped code r hr
  | collect => exact hstamped code r (lookup_of_lookup_collect hr)

/-- **What a pass removes**: the responses without a time. -/
theorem lookup_collect_eq_none_iff (hnow : inClock now = true) (h : m.lookup code = some r)
    (hr : r.timestamp = zeroTime ∨ inClock r.timestamp = true) :
    (collect now m).lookup code = none ↔ r.timestamp = zeroTime := by
  constructor
  · intro hnone
    refine hr.resolve_right fun hclock => ?_
    rw [lookup_collect hnow h hclock] at hnone
    cases hnone
  · intro hzero
    have hold : 60000000000 < now - r.timestamp := by
      simp only [inClock, decide_eq_true_eq] at hnow
      rw [hzero, zeroTime]
      omega
    rw [collect, lookup_foldl_erase, if_pos]
    refine List.mem_map.2 ⟨⟨code, r⟩, List.mem_filter.2 ⟨AList.mem_lookup_iff.1 h, ?_⟩, rfl⟩
    simpa using hold

theorem Next.isSome_lookup (h : Next allowedRetries s e s') (hcrash : e.isCrash = false)
    (hcollect : e.isCollect = false) (hsome : (s.responses.lookup code).isSome = true) :
    (s'.responses.lookup code).isSome = true := by
  cases h with
  | crash => cases hcrash
  | collect => cases hcollect
  | run ht hstep h => exact h.isSome_lookup hsome
  | recover h =>
    generalize s.recovery = recovery at h
    cases h with
    | loadResponses => exact isSome_lookup_load (.inl hsome)
    | _ => exact hsome
  | submit | read => exact hsome

/-! ## Runs -/

theorem next_of_timed {s s' : Timed} {te : ℤ × Event}
    (h : (timedProxy allowedRetries).next s te = some s') :
    Next allowedRetries s.proxy te.2 s'.proxy := by
  simp only [timedProxy, Option.ite_none_right_eq_some, Option.map_eq_some_iff] at h
  obtain ⟨-, p, hp, rfl⟩ := h
  exact next_cases hp

theorem stamped_of_run {tr : List (Machine.Step Timed (ℤ × Event))} {s : Timed}
    (h : (timedProxy allowedRetries).Run tr s) :
    s.proxy.Sound allowedRetries ∧ Stamped s.proxy := by
  refine h.invariant_state (I := fun s => s.proxy.Sound allowedRetries ∧ Stamped s.proxy) ?_ ?_
  · rintro s ⟨hstore, hrestart⟩
    rw [hrestart]
    exact ⟨⟨hstore, List.forall_mem_nil _, trivial⟩, fun code r hr => by cases hr⟩
  · intro s te s' hI hnext
    have hnext := next_of_timed hnext
    exact ⟨hnext.sound hI.1, hnext.stamped hI.1 hI.2⟩

theorem retains_collect_iff {s s' : Timed} {t now : ℤ} (hnow : inClock now = true)
    (hstamped : Stamped s.proxy) (hs' : s'.proxy.responses = collect now s.proxy.responses) :
    Retains ⟨s, (t, .collect now), s'⟩ ∧ CollectsOld ⟨s, (t, .collect now), s'⟩ ↔
      Timely ⟨s, (t, .collect now), s'⟩ := by
  have hremoved : ∀ {code r}, s.proxy.responses.lookup code = some r →
      (s'.proxy.responses.lookup code = none ↔ r.timestamp = zeroTime) := by
    intro code r hr
    rw [hs']
    exact lookup_collect_eq_none_iff hnow hr (hstamped code r hr)
  constructor
  · rintro ⟨hretains, hcollects⟩ - ⟨code, r⟩ hentry
    have hr : s.proxy.responses.lookup code = some r := AList.mem_lookup_iff.2 hentry
    by_cases hzero : r.timestamp = zeroTime
    · rw [if_pos hzero]
      by_contra! hyoung
      have hsome := hretains rfl code (by rw [hr]; rfl) hyoung
      simp [(hremoved hr).2 hzero] at hsome
    · rw [if_neg hzero]
      by_contra! hold
      exact hzero ((hremoved hr).1 (hcollects rfl code hold))
  · intro htimely
    refine ⟨fun _ code hsome hyoung => ?_, fun _ code hold => ?_⟩
    · obtain ⟨r, hr⟩ := Option.isSome_iff_exists.1 hsome
      have htime := htimely rfl ⟨code, r⟩ (AList.mem_lookup_iff.1 hr)
      rw [Option.isSome_iff_ne_none]
      intro hnone
      rw [if_pos ((hremoved hr).1 hnone)] at htime
      exact not_le.2 hyoung htime
    · cases hr : s.proxy.responses.lookup code with
      | none =>
        by_contra hne
        obtain ⟨r, hr'⟩ := Option.ne_none_iff_exists'.1 hne
        rw [hs'] at hr'
        rw [lookup_of_lookup_collect hr'] at hr
        cases hr
      | some r =>
        have htime := htimely rfl ⟨code, r⟩ (AList.mem_lookup_iff.1 hr)
        rw [hremoved hr]
        by_contra hzero
        rw [if_neg hzero] at htime
        exact not_le.2 hold htime

/-- **Responses are kept for a minute, and each pass removes what is older**, exactly in the runs
where at each pass the responses without a time are old enough and the others are not too old. -/
theorem retention_iff {tr : List (Machine.Step Timed (ℤ × Event))} {s : Timed}
    (h : (timedProxy allowedRetries).Run tr s) :
    (∀ st ∈ tr, Retains st ∧ CollectsOld st) ↔ ∀ st ∈ tr, Timely st := by
  refine forall₂_congr fun st hst => ?_
  have hnext := next_of_timed (h.next_of_mem hst)
  obtain ⟨tr', -, hrun⟩ := h.src hst
  obtain ⟨-, hstamped⟩ := stamped_of_run hrun
  obtain ⟨src, ⟨t, e⟩, dst⟩ := st
  cases hc : e.isCollect with
  | true =>
    cases e with
    | collect now =>
      generalize hdst : dst.proxy = s' at hnext
      cases hnext with
      | collect hlock hnow => exact retains_collect_iff hnow hstamped (by rw [hdst])
    | _ => cases hc
  | false =>
    have hno : ¬ e.isCollect = true := by simp [hc]
    refine iff_of_true ⟨fun hcrash code hsome _ => ?_, fun h => absurd h hno⟩ fun h => absurd h hno
    exact hnext.isSome_lookup hcrash hc hsome

/-- A response is half a minute old at a pass. -/
theorem retention_of_young : ∃ tr s, (timedProxy 1).Run tr s ∧
    (∃ st ∈ tr, st.event.2.isCollect = true ∧
      (st.src.proxy.responses.lookup [0x61]).isSome = true) ∧
    ∀ st ∈ tr, Retains st ∧ CollectsOld st := by
  obtain ⟨tr, s, hrun, hpass, htimely⟩ : ∃ tr s, (timedProxy 1).Run tr s ∧
      (∃ st ∈ tr, st.event.2.isCollect = true ∧
        (st.src.proxy.responses.lookup [0x61]).isSome = true) ∧ ∀ st ∈ tr, Timely st :=
    Machine.exists_run_of_play
      (((recoveryWith [] [] ++ submission 0 [0x61] ++ execution 1 [0x21] .ok).map fun e =>
        (0, e)) ++ [(30 * second, .collect 30)])
      (s := ⟨{}, 0, fun _ => 0⟩) (init_empty 1) (by decide +kernel)
  exact ⟨tr, s, hrun, hpass, (retention_iff hrun).2 htimely⟩

/-- A request is answered, and an hour later the attempts for another one are used up. The pass a
second later removes the response to the second and keeps the one to the first. -/
theorem exists_vanished : ∃ tr s, (timedProxy 1).Run tr s ∧ ∃ st ∈ tr, st.event.2.isCollect = true ∧
    (st.src.proxy.responses.lookup [0x62]).isSome = true ∧
    st.event.1 = st.src.recordedAt [0x62] + second ∧
    (st.dst.proxy.responses.lookup [0x62]).isNone = true ∧
    st.event.1 = st.src.recordedAt [0x61] + 3601 * second ∧
    (st.dst.proxy.responses.lookup [0x61]).isSome = true :=
  Machine.exists_run_of_play
    (((recoveryWith [] [] ++ submission 0 [0x61] ++ execution 1 [0x21] .ok).map fun e => (0, e)) ++
      ((submission 2 [0x62] ++ [Event.run 3 .none,
        .run 3 (.returned .noEndpoint 3600), .run 3 .none,
        .run 4 .none, .run 4 .none]).map fun e => (3600 * second, e)) ++
      [(3601 * second, .collect 3601)])
    (s := ⟨{}, 0, fun _ => 0⟩) (init_empty 1) (by decide +kernel)

end Dirigent.AsyncProxy
