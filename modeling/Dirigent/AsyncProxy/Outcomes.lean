import Dirigent.AsyncProxy.Attempts

/-!
# Outcomes are final

A goroutine that has a response records it in memory, and from then on the client can read it. Then
it stores the response. If the attempts were used up, the response is recorded in memory alone, and
the request stays in the store. After a crash the recovery decides by the store: what was read and
is not there is executed again.

A response is *settled* if a goroutine of the process has recorded it, or, where none has, if it is
in the store. What is read is settled (`Settles`), and it stays so unless the process crashes
between the two. The goroutine that has recorded a response is the only one for its code (`Single`),
and where the response is in the store the recovery loads it before it looks for requests.

* **`outcomesFinal`** — a response that was read does not change, and its request is not executed
  again, if each response that is recorded at a crash is in the store.
* **`answers_iff`** — a client who reads is told the recorded status exactly if this is 200.
* `exists_reexecuted` — after the attempts were used up, the request is executed again.
* `exists_status_lost` — neither the status of the function nor that of the failure is the one that
  the client gets.
-/

namespace Dirigent.AsyncProxy

open Threads

/-! ## The properties -/

/-- The response that a read of the code finds. -/
def found (code : Bytes) (st : Machine.Step Proxy Event) : Option BufferedResponse :=
  match st.event with
  | .read c => if c = code then st.src.responses.lookup code else none
  | _ => none

/-- After a read that has found a response, the request is not executed again, and each read that
finds a response finds the same one. -/
def OutcomesFinal (allowedRetries : ℤ) (tr : Trace) (code : Bytes) : Prop :=
  tr.Pairwise fun later earlier => ∀ response ∈ found code earlier,
    isOf code (fires allowedRetries later) = false ∧
      ∀ response' ∈ found code later, response' = response

/-- The response that a goroutine has recorded. -/
def Point.outcome : Point → Option (Bytes × BufferedResponse)
  | .persistResponse r response | .deleteRequest r response | .finished r response =>
    some (r.code, response)
  | .gaveUp r => some (r.code, failedManyTimes)
  | _ => none

/-- The condition: when the process crashes, a response that was recorded for the code is in the
store, as it was recorded. -/
def SavesOutcomes (code : Bytes) (st : Machine.Step Proxy Event) : Prop :=
  match st.event with
  | .crash => ∀ t ∈ st.src.threads, ∀ o ∈ t.outcome, o.1 = code →
      st.src.store.responseOf code = some o.2
  | _ => True

/-- The status and the body that a step records: those of the function's answer, or of the failure
when the attempts are used up. -/
def recorded (code : Bytes) (st : Machine.Step Proxy Event) : Option (ℤ × Bytes) :=
  match st.event with
  | .run i _ =>
    match st.src.threads[i]? with
    | some (.record r (.answered status body) _) =>
      if r.code = code then some (status, body) else none
    | some (.exhausted r) =>
      if r.code = code then some (failedManyTimes.statusCode, failedManyTimes.body) else none
    | _ => none
  | _ => none

/-- What the client is told who reads the code. -/
def answerTo (code : Bytes) (st : Machine.Step Proxy Event) : Option ResponseWriter :=
  match st.event with
  | .read c => if c = code then some (readHandler st.src.responses code) else none
  | _ => none

/-- Whoever reads the code after a response was recorded is told its status and its body. -/
def Transparent (tr : Trace) (code : Bytes) : Prop :=
  tr.Pairwise fun later earlier => ∀ a ∈ recorded code earlier, ∀ w ∈ answerTo code later,
    w = ⟨some a.1, a.2⟩

/-- The recovery has loaded the responses. -/
def Recovery.loaded : Recovery → Bool
  | .scanResponses | .readResponses _ _ => false
  | _ => true

/-! ## Settled responses -/

/-- The recovery has loaded the response, or is going to. -/
def Loads (s : Proxy) (code : Bytes) (response : BufferedResponse) : Recovery → Prop
  | .scanResponses => True
  | .readResponses ks rs => responseKey code ∈ ks ∨ response ∈ rs
  | _ => s.responses.lookup code = some response

/-- No goroutine has recorded a response for the code. -/
def Proxy.Unrecorded (s : Proxy) (code : Bytes) : Prop :=
  ∀ t ∈ s.threads, ∀ response, t.outcome ≠ some (code, response)

structure Settles (s : Proxy) (code : Bytes) : Prop where
  single : Single s code
  idle : s.recovery.handling = false → ∀ t ∈ s.threads, t.carries code = false
  memory : ∀ response, s.responses.lookup code = some response →
    (∃ t ∈ s.threads, t.outcome = some (code, response)) ∨ s.store.responseOf code = some response
  stored : ∀ t ∈ s.threads, ∀ response, t.outcome = some (code, response) →
    s.store.responseOf code = none ∨
      s.store.responseOf code = some (BufferedResponse.encoding.clean response)
  agrees : ∀ t ∈ s.threads, ∀ response response', t.outcome = some (code, response) →
    s.responses.lookup code = some response' → response' = response
  remembered : ∀ t ∈ s.threads, ∀ response, t.outcome = some (code, response) →
    inClock response.timestamp = true → s.responses.lookup code = some response
  read : ∀ ks rs, s.recovery = .readResponses ks rs → ∀ r ∈ rs, r.code = code →
    s.store.responseOf code = some r
  recovered : s.Unrecorded code → ∀ response, s.store.responseOf code = some response →
    (∀ t ∈ s.threads, t.holds code = false) ∧ Loads s code response s.recovery

/-- A response is settled. -/
def Settled (s : Proxy) (code : Bytes) (response : BufferedResponse) : Prop :=
  (∃ t ∈ s.threads, t.outcome = some (code, response)) ∨
    (s.Unrecorded code ∧ s.store.responseOf code = some response)

section

variable {allowedRetries : ℤ} {s s' : Proxy} {t t' : Point} {new : List Point} {code : Bytes}
  {response : BufferedResponse}

theorem carries_of_outcome (h : t.outcome = some (code, response)) : t.carries code = true := by
  cases t with
  | persistResponse r response' | deleteRequest r response' | finished r response' | gaveUp r =>
    cases h
    exact decide_eq_true rfl
  | _ => cases h

theorem Steps.outcome (h : Steps allowedRetries s t s' t' new)
    (ho : t.outcome = some (code, response)) : t'.outcome = some (code, response) := by
  cases h with
  | persistResponse | persistResponseFails | deleteRequest | deleteRequestFails => exact ho
  | _ => cases ho

variable {p : Recovery} {e : Event} {u : Point} {i : ℕ} {tr : Trace}

theorem loads_iff (h : p.loaded = true) :
    Loads s code response p ↔ s.responses.lookup code = some response := by
  cases p with
  | scanResponses | readResponses ks rs => cases h
  | _ => exact Iff.rfl

theorem Loads.mono (h : Loads s code response p)
    (hlookup : s.responses.lookup code = some response → s'.responses.lookup code = some response) :
    Loads s' code response p := by
  cases p with
  | scanResponses | readResponses ks rs => exact h
  | _ => exact hlookup h

theorem Settles.not_carries (h : Settles s code) (hun : s.Unrecorded code)
    (hstore : s.store.responseOf code = some response) (ht : t ∈ s.threads) :
    t.carries code = false := by
  by_contra hcarries
  have hholds := holds_of_carries ((Bool.not_eq_false _).mp hcarries)
  simp [(h.recovered hun response hstore).1 t ht] at hholds

/-- **What is read is settled.** -/
theorem Settles.settled (h : Settles s code) (hr : s.responses.lookup code = some response) :
    Settled s code response := by
  by_cases hun : s.Unrecorded code
  · rcases h.memory response hr with hex | hstore
    · exact .inl hex
    · exact .inr ⟨hun, hstore⟩
  · simp only [Proxy.Unrecorded, not_forall, not_not] at hun
    obtain ⟨t, ht, response', ho⟩ := hun
    obtain rfl := h.agrees t ht response' response ho hr
    exact .inl ⟨t, ht, ho⟩

theorem Settled.eq_of_lookup (hs : Settled s code response) (h : Settles s code)
    {response' : BufferedResponse} (hr : s.responses.lookup code = some response') :
    response' = response := by
  rcases hs with ⟨t, ht, ho⟩ | ⟨hun, hstore⟩
  · exact h.agrees t ht response response' ho hr
  · rcases h.memory response' hr with ⟨t, ht, ho⟩ | hstore'
    · exact absurd ho (hun t ht response')
    · exact Option.some.inj (hstore'.symm.trans hstore)

/-- A response of an attempt is found, once the responses are loaded. -/
theorem Settled.lookup (hs : Settled s code response) (h : Settles s code)
    (htime : inClock response.timestamp = true) (hloaded : s.recovery.loaded = true) :
    s.responses.lookup code = some response := by
  rcases hs with ⟨t, ht, ho⟩ | ⟨hun, hstore⟩
  · exact h.remembered t ht response ho htime
  · exact (loads_iff hloaded).1 (h.recovered hun response hstore).2

theorem Settled.not_fires (hs : Settled s code response) (h : Settles s code) :
    isOf code (fires allowedRetries ⟨s, e, s'⟩) = false := by
  rcases hs with ⟨t, ht, ho⟩ | ⟨hun, hstore⟩
  · refine h.single.not_fires ht (carries_of_outcome ho) fun r hr => ?_
    subst hr
    cases ho
  · by_contra hfires
    obtain ⟨i, r, hi, hcode⟩ := exists_of_fires ((Bool.not_eq_false _).mp hfires)
    have hnot := h.not_carries hun hstore (List.mem_of_getElem? hi)
    exact absurd hcode (of_decide_eq_false hnot)

theorem lookup_of_found {st : Machine.Step Proxy Event} (h : found code st = some response) :
    st.src.responses.lookup code = some response := by
  unfold found at h
  split at h
  · exact (Option.ite_none_right_eq_some.1 h).2
  · cases h

/-! ## A step of a goroutine -/

theorem Single.eq_of_carries {i j : ℕ} (h : Single s code) (ht : s.threads[i]? = some t)
    (hcarries : t.carries code = true) (hu : s.threads[j]? = some u) (hu' : u.carries code = true) :
    j = i := by
  by_contra hji
  simp [eq_false_of_countP_le_one h.carries_le ht hcarries hu hji] at hu'

/-- A goroutine that is about to record a response is the first to do so, and nothing is stored. -/
theorem Settles.unrecorded (h : Settles s code) (ht : s.threads[i]? = some t)
    (hcarries : t.carries code = true) (hnone : t.outcome = none) :
    s.Unrecorded code ∧ s.store.responseOf code = none := by
  have hun : s.Unrecorded code := by
    intro u hu response ho
    obtain ⟨j, hj⟩ := List.mem_iff_getElem?.1 hu
    obtain rfl := h.single.eq_of_carries ht hcarries hj (carries_of_outcome ho)
    obtain rfl := Option.some.inj (ht.symm.trans hj)
    simp [hnone] at ho
  refine ⟨hun, ?_⟩
  by_contra hsome
  obtain ⟨response, hstore⟩ := Option.ne_none_iff_exists'.1 hsome
  simp [h.not_carries hun hstore (List.mem_of_getElem? ht)] at hcarries

/-- What a statement of a goroutine does to the response of a code: nothing, or it records it, or it
stores the one that it has recorded. -/
theorem Steps.response_cases (h : Steps allowedRetries s t s' t' new)
    (hsound : t.Sound allowedRetries s.issued) (code : Bytes) :
    (s'.responses.lookup code = s.responses.lookup code ∧
        s'.store.responseOf code = s.store.responseOf code ∧
        (∀ o, t'.outcome = some (code, o) → t.outcome = some (code, o))) ∨
      (∃ response, s'.responses.lookup code = some response ∧
        s'.store.responseOf code = s.store.responseOf code ∧ t'.outcome = some (code, response) ∧
        t.carries code = true ∧ t.outcome = none) ∨
      (∃ response, s'.responses.lookup code = s.responses.lookup code ∧
        s'.store.responseOf code = some (BufferedResponse.encoding.clean response) ∧
        t.outcome = some (code, response)) := by
  cases h with
  | persistRequest t' ht' =>
    refine .inl ⟨rfl, Store.responseOf_persistBufferedRequest _ _ _, fun o ho => ?_⟩
    rcases ht' with rfl | rfl <;> cases ho
  | @exhausted r hlock | @record r o now hlock =>
    by_cases hcode : r.code = code
    · subst hcode
      exact .inr (.inl ⟨_, AList.lookup_insert _, rfl, rfl, decide_eq_true rfl, rfl⟩)
    · refine .inl ⟨AList.lookup_insert_ne (Ne.symm hcode), rfl, fun o ho => ?_⟩
      cases ho
      exact absurd rfl hcode
  | @persistResponse r response =>
    have hres := s.store.responseOf_persistBufferedResponse response code
    by_cases hcode : r.code = code
    · subst hcode
      rw [if_pos hsound.2.2.1.symm] at hres
      exact .inr (.inr ⟨response, rfl, hres, rfl⟩)
    · rw [hsound.2.2.1, if_neg (Ne.symm hcode)] at hres
      exact .inl ⟨rfl, hres, fun o ho => ho⟩
  | persistResponseFails | deleteRequestFails => exact .inl ⟨rfl, rfl, fun o ho => ho⟩
  | deleteRequest =>
    exact .inl ⟨rfl, Store.responseOf_deleteBufferedRequest _ _ _, fun o ho => ho⟩
  | _ => exact .inl ⟨rfl, rfl, nofun⟩

theorem Steps.new_outcome (h : Steps allowedRetries s t s' t' new) :
    ∀ u ∈ new, u.outcome = none := by
  intro u hu
  cases h with
  | putRequest hhandling | retry hhandling => rw [List.mem_singleton.1 hu]; rfl
  | _ => cases hu

/-- Goroutines are started only when something receives from the channel. -/
theorem Steps.idle (h : Steps allowedRetries s t s' t' new) (hidle : s.recovery.handling = false)
    (ht : t.carries code = false) :
    t'.carries code = false ∧ ∀ u ∈ new, u.carries code = false := by
  cases h with
  | persistRequest t' ht' => rcases ht' with rfl | rfl <;> exact ⟨rfl, List.forall_mem_nil _⟩
  | putRequest hhandling | retry hhandling =>
    rw [hidle] at hhandling
    cases hhandling
  | newCode hvalid hfresh | persistRequestFails | answer => exact ⟨rfl, List.forall_mem_nil _⟩
  | _ => exact ⟨ht, List.forall_mem_nil _⟩

/-- The responses that goroutines have recorded after a statement. -/
theorem Steps.outcome_cases (h : Steps allowedRetries s t s' t' new) (ht : s.threads[i]? = some t)
    (hu : u ∈ advance s.threads i t' new) {o : Bytes × BufferedResponse}
    (ho : u.outcome = some o) :
    u = t' ∨ ∃ j, j ≠ i ∧ s.threads[j]? = some u := by
  rcases mem_advance ht hu with rfl | hold | hnew
  · exact .inl rfl
  · exact .inr hold
  · rw [h.new_outcome u hnew] at ho
    cases ho

theorem Steps.exists_outcome (h : Steps allowedRetries s t s' t' new)
    (ht : s.threads[i]? = some t) (hex : ∃ u ∈ s.threads, u.outcome = some (code, response)) :
    ∃ u ∈ advance s.threads i t' new, u.outcome = some (code, response) :=
  exists_mem_advance ht h.outcome hex

theorem Steps.not_holds (h : Steps allowedRetries s t s' t' new) (ht : s.threads[i]? = some t)
    (hissued : code ∈ s.issued) (hnot : ∀ u ∈ s.threads, u.holds code = false) :
    ∀ u ∈ advance s.threads i t' new, u.holds code = false := by
  have hzero : (advance s.threads i t' new).countP (Point.holds code) = 0 := by
    have hcount := countP_advance (Point.holds code) ht t' new
    have hold : s.threads.countP (Point.holds code) = 0 :=
      List.countP_eq_zero.2 fun u hu => by simp [hnot u hu]
    rcases h.holds code with hle | ⟨hfresh, -⟩
    · have hself := hnot t (List.mem_of_getElem? ht)
      simp only [hself, Bool.false_eq_true, if_false] at hle hcount
      omega
    · exact absurd hissued hfresh
  intro u hu
  simpa using List.countP_eq_zero.1 hzero u hu

theorem Settles.run (h : Settles s code) (hs : s.Sound allowedRetries)
    (ht : s.threads[i]? = some t) (hstep : Steps allowedRetries s t s' t' new) :
    Settles { s' with threads := advance s.threads i t' new } code := by
  have hmem := List.mem_of_getElem? ht
  have hrec := hstep.recovery_eq
  have hidle : s'.recovery.handling = false →
      ∀ u ∈ advance s.threads i t' new, u.carries code = false := by
    intro hidle
    rw [hrec] at hidle
    obtain ⟨ht', hnew⟩ := hstep.idle hidle (h.idle hidle t hmem)
    exact forall_mem_advance ht' (h.idle hidle) hnew
  -- before something receives from the channel, no goroutine makes a response
  have hread : (t.carries code = false → s'.store.responseOf code = s.store.responseOf code) →
      ∀ ks rs, s'.recovery = .readResponses ks rs → ∀ r ∈ rs, r.code = code →
        s'.store.responseOf code = some r := by
    intro hsame ks rs hp r hr hcode
    rw [hrec] at hp
    rw [hsame (h.idle (by rw [hp]; rfl) t hmem)]
    exact h.read ks rs hp r hr hcode
  have hself := mem_advance_self t' new ht
  -- whoever has the request has the only response
  have honly : ∀ {response}, t.carries code = true → t'.outcome = some (code, response) →
      ∀ u ∈ advance s.threads i t' new, ∀ o, u.outcome = some (code, o) → o = response := by
    intro response hcarries hout u hu o ho
    rcases hstep.outcome_cases ht hu ho with rfl | ⟨j, hji, hj⟩
    · rw [hout] at ho
      cases ho
      rfl
    · exact absurd (h.single.eq_of_carries ht hcarries hj (carries_of_outcome ho)) hji
  rcases hstep.response_cases (hs.threads t hmem) code with ⟨hlookup, hstore, hout⟩ |
    ⟨response, hlookup, hstore, hout, hcarries, hnone⟩ | ⟨response, hlookup, hstore, hout⟩
  · -- the responses that are recorded are those that were
    have hold : ∀ u ∈ advance s.threads i t' new, ∀ o, u.outcome = some (code, o) →
        ∃ v ∈ s.threads, v.outcome = some (code, o) := by
      intro u hu o ho
      rcases hstep.outcome_cases ht hu ho with rfl | ⟨j, -, hj⟩
      · exact ⟨t, hmem, hout o ho⟩
      · exact ⟨u, List.mem_of_getElem? hj, ho⟩
    exact {
      single := h.single.run hs ht hstep
      idle := hidle
      memory := fun o hr => by
        rcases h.memory o (hlookup ▸ hr) with hex | hres
        · exact .inl (hstep.exists_outcome ht hex)
        · exact .inr (hstore.trans hres)
      stored := fun u hu o ho => by
        obtain ⟨v, hv, ho⟩ := hold u hu o ho
        exact hstore.symm ▸ h.stored v hv o ho
      agrees := fun u hu o o' ho hr => by
        obtain ⟨v, hv, ho⟩ := hold u hu o ho
        exact h.agrees v hv o o' ho (hlookup ▸ hr)
      remembered := fun u hu o ho htime => by
        obtain ⟨v, hv, ho⟩ := hold u hu o ho
        exact hlookup.trans (h.remembered v hv o ho htime)
      read := hread fun _ => hstore
      recovered := fun hun o hres => by
        have hun' : s.Unrecorded code := fun v hv o' ho' => by
          obtain ⟨u, hu, ho⟩ := hstep.exists_outcome ht ⟨v, hv, ho'⟩
          exact hun u hu o' ho
        have hres' : s.store.responseOf code = some o := hstore ▸ hres
        obtain ⟨hholds, hloads⟩ := h.recovered hun' o hres'
        refine ⟨hstep.not_holds ht (hs.store.response code o hres').1 hholds, ?_⟩
        change Loads _ code o s'.recovery
        rw [hrec]
        exact hloads.mono hlookup.trans }
  · -- a response is recorded
    obtain ⟨hun, hres⟩ := h.unrecorded ht hcarries hnone
    have honly := honly hcarries hout
    exact {
      single := h.single.run hs ht hstep
      idle := hidle
      memory := fun o hr => by
        obtain rfl := Option.some.inj (hlookup.symm.trans hr)
        exact .inl ⟨t', hself, hout⟩
      stored := fun u hu o ho => .inl (hstore.trans hres)
      agrees := fun u hu o o' ho hr => by
        rw [honly u hu o ho]
        exact Option.some.inj (hr.symm.trans hlookup)
      remembered := fun u hu o ho htime => by
        rw [honly u hu o ho]
        exact hlookup
      read := hread fun hcarries' => by rw [hcarries] at hcarries'; cases hcarries'
      recovered := fun hun' => absurd hout (hun' t' hself response) }
  · -- the response that was recorded is stored
    have hcarries := carries_of_outcome hout
    have honly := honly hcarries (hstep.outcome hout)
    exact {
      single := h.single.run hs ht hstep
      idle := hidle
      memory := fun o hr => by
        rw [h.agrees t hmem response o hout (hlookup ▸ hr)]
        exact .inl ⟨t', hself, hstep.outcome hout⟩
      stored := fun u hu o ho => by
        rw [honly u hu o ho]
        exact .inr hstore
      agrees := fun u hu o o' ho hr => by
        rw [honly u hu o ho]
        exact h.agrees t hmem response o' hout (hlookup ▸ hr)
      remembered := fun u hu o ho htime => by
        obtain rfl := honly u hu o ho
        exact hlookup.trans (h.remembered t hmem o hout htime)
      read := hread fun hcarries' => by rw [hcarries] at hcarries'; cases hcarries'
      recovered := fun hun' => absurd (hstep.outcome hout) (hun' t' hself response) }

/-! ## A step of the recovery -/

theorem Settles.not_outcome (h : Settles s code) (hidle : s.recovery.handling = false) :
    s.Unrecorded code := by
  intro t ht response ho
  simpa [h.idle hidle t ht] using carries_of_outcome ho

theorem Settles.of_recovery (h : Settles s code) (hsingle : Single { s with recovery := p } code)
    (hidle : p.handling = false → s.recovery.handling = false)
    (hread : ∀ ks rs, p = .readResponses ks rs → ∀ r ∈ rs, r.code = code →
      s.store.responseOf code = some r)
    (hloads : ∀ response, s.store.responseOf code = some response →
      Loads s code response s.recovery → Loads s code response p) :
    Settles { s with recovery := p } code where
  single := hsingle
  idle hp := h.idle (hidle hp)
  memory := h.memory
  stored := h.stored
  agrees := h.agrees
  remembered := h.remembered
  read := hread
  recovered hun response hstore := by
    obtain ⟨hholds, hloaded⟩ := h.recovered hun response hstore
    exact ⟨hholds, hloads response hstore hloaded⟩

/-- A goroutine is started that does not have the request, or whose response is not stored. -/
theorem Settles.spawn (h : Settles s code)
    (hsingle : Single { s with threads := s.threads ++ [u] } code) (hout : u.outcome = none)
    (hidle : s.recovery.handling = false → u.carries code = false)
    (hholds : ∀ response, s.store.responseOf code = some response →
      Loads s code response s.recovery → u.holds code = false) :
    Settles { s with threads := s.threads ++ [u] } code := by
  have hold : ∀ v ∈ s.threads ++ [u], ∀ o, v.outcome = some (code, o) → v ∈ s.threads := by
    intro v hv o ho
    rcases List.mem_append.1 hv with hv | hv
    · exact hv
    · simp [List.mem_singleton.1 hv, hout] at ho
  exact {
    single := hsingle
    idle := fun hp => forall_mem_concat (h.idle hp) (hidle hp)
    memory := fun o hr => (h.memory o hr).imp_left fun ⟨v, hv, ho⟩ =>
      ⟨v, List.mem_append_left _ hv, ho⟩
    stored := fun v hv o ho => h.stored v (hold v hv o ho) o ho
    agrees := fun v hv o o' ho hr => h.agrees v (hold v hv o ho) o o' ho hr
    remembered := fun v hv o ho htime => h.remembered v (hold v hv o ho) o ho htime
    read := h.read
    recovered := fun hun o hstore => by
      obtain ⟨hnot, hloads⟩ := h.recovered (fun v hv => hun v (List.mem_append_left _ hv)) o hstore
      exact ⟨forall_mem_concat hnot (hholds o hstore hloads), hloads⟩ }

theorem Settles.panic (h : Settles s code) : Settles { s with panicked := true } code :=
  ⟨⟨h.single.holders, h.single.origin⟩, h.idle, h.memory, h.stored, h.agrees, h.remembered, h.read,
    h.recovered⟩

theorem Settles.load {rs : List BufferedResponse} (h : Settles s code) (hs : s.Sound allowedRetries)
    (hp : s.recovery = .readResponses [] rs)
    (hsingle : Single { s with
      responses := rs.foldl (fun m r => m.insert r.code r) s.responses
      recovery := .startHandler } code) :
    Settles { s with
      responses := rs.foldl (fun m r => m.insert r.code r) s.responses
      recovery := .startHandler } code := by
  have hidle : s.recovery.handling = false := by
    rw [hp]
    rfl
  have hun := h.not_outcome hidle
  have hstored : ∀ r, (rs.foldl (fun m r => m.insert r.code r) s.responses).lookup code = some r →
      s.store.responseOf code = some r := by
    intro r hr
    rcases lookup_load hr with ⟨hmem, hcode⟩ | hr
    · exact h.read _ _ hp r hmem hcode
    · rcases h.memory r hr with ⟨t, ht, ho⟩ | hstore
      · exact absurd ho (hun t ht r)
      · exact hstore
  exact {
    single := hsingle
    idle := fun _ => h.idle hidle
    memory := fun r hr => .inr (hstored r hr)
    stored := fun t ht o ho => absurd ho (hun t ht o)
    agrees := fun t ht o o' ho => absurd ho (hun t ht o)
    remembered := fun t ht o ho => absurd ho (hun t ht o)
    read := nofun
    recovered := fun _ response hstore => by
      obtain ⟨hholds, hloads⟩ := h.recovered hun response hstore
      refine ⟨hholds, ?_⟩
      rw [hp] at hloads
      have hmem : response ∈ rs := hloads.resolve_left List.not_mem_nil
      obtain ⟨r, hr⟩ := Option.isSome_iff_exists.1 (isSome_lookup_load (m := s.responses)
        (.inr ⟨response, hmem, (hs.store.response code response hstore).2.1⟩))
      rw [Option.some.inj ((hstored r hr).symm.trans hstore)] at hr
      exact hr }

theorem Settles.recover (h : Settles s code) (hs : s.Sound allowedRetries) (hp : s.recovery = p)
    (hrec : Recovers s p s') (hsingle : Single s' code) : Settles s' code := by
  have hkeys := hs.recovery
  rw [hp] at hkeys
  -- after the responses are loaded, a step of the recovery leaves them as they are
  have hloaded : ∀ q : Recovery, p.loaded = true → q.loaded = true → ∀ response,
      Loads s code response s.recovery → Loads s code response q := by
    intro q hpl hql response hloads
    rw [hp, loads_iff hpl] at hloads
    exact (loads_iff hql).2 hloads
  cases hrec with
  | scanResponses hscan =>
    refine h.of_recovery hsingle (fun _ => by rw [hp]; rfl) (fun ks rs heq r hr => ?_) ?_
    · cases heq
      cases hr
    · intro response hstore _
      exact .inl ((hscan _).2 (Store.mem_scanKeys_response.2 ⟨code, rfl, by rw [hstore]; rfl⟩))
  | @readResponse k ks rs r hr =>
    refine h.of_recovery hsingle (fun _ => by rw [hp]; rfl) (fun ks' rs' heq r' hr' hcode => ?_) ?_
    · cases heq
      rcases List.mem_append.1 hr' with hr' | hr'
      · exact h.read _ _ hp r' hr' hcode
      · obtain rfl := List.mem_singleton.1 hr'
        obtain ⟨code', rfl⟩ := hkeys.1 k List.mem_cons_self
        obtain rfl := (hs.store.response code' r' hr).2.1.symm.trans hcode
        exact hr
    · intro response hstore hloads
      rw [hp] at hloads
      rcases hloads with hkey | hmem
      · rcases List.mem_cons.1 hkey with rfl | hkey
        · obtain rfl := Option.some.inj (hr.symm.trans hstore)
          exact .inr (by simp)
        · exact .inl hkey
      · exact .inr (List.mem_append_left _ hmem)
  | readResponseFails | readRequestFails => exact h.panic
  | loadResponses => exact h.load hs hp hsingle
  | startHandler =>
    exact h.of_recovery hsingle (by simp [Recovery.handling]) (by simp) fun response _ =>
      hloaded (.scanRequests _) rfl rfl response
  | @resend r rs hnone =>
    have hmoved : Settles { s with recovery := .resend rs } code := by
      refine h.of_recovery ⟨?_, by simp [Recovery.beforeScan]⟩
        (by simp [Recovery.handling]) (by simp)
        fun response _ => hloaded (.resend rs) rfl rfl response
      have hholders := h.single.holders
      rw [hp] at hholders
      simp only [Recovery.holds, List.countP_cons] at hholders ⊢
      omega
    refine hmoved.spawn hsingle rfl (by simp [Recovery.handling]) fun response hstore hloads => ?_
    have hne : r.code ≠ code := by
      intro hcode
      rw [hcode, show s.responses.lookup code = some response from hloads] at hnone
      cases hnone
    simp [Point.holds, Point.queued, Point.carried, isOf, hne]
  | _ =>
    exact h.of_recovery hsingle (by simp [Recovery.handling]) (by simp) fun response _ =>
      hloaded _ rfl rfl response

/-! ## Whole runs -/

theorem Settles.next (h : Settles s code) (hs : s.Sound allowedRetries)
    (hnext : Next allowedRetries s e s') (hscan : ScansOthers ⟨s, e, s'⟩) : Settles s' code := by
  have hsingle := h.single.next hs hnext hscan
  cases hnext with
  | crash =>
    exact ⟨hsingle, fun _ => List.forall_mem_nil _, nofun, List.forall_mem_nil _,
      List.forall_mem_nil _, List.forall_mem_nil _, nofun,
      fun _ _ _ => ⟨List.forall_mem_nil _, trivial⟩⟩
  | recover hrec => exact h.recover hs rfl hrec hsingle
  | submit => exact h.spawn hsingle rfl (fun _ => rfl) fun _ _ _ => rfl
  | run ht _ hstep => exact h.run hs ht hstep
  | read => exact h
  | @collect now hlock hnow =>
    exact {
      single := hsingle
      idle := h.idle
      memory := fun o hr => h.memory o (lookup_of_lookup_collect hr)
      stored := h.stored
      agrees := fun t ht o o' ho hr => h.agrees t ht o o' ho (lookup_of_lookup_collect hr)
      remembered := fun t ht o ho htime => lookup_collect hnow (h.remembered t ht o ho htime) htime
      read := h.read
      recovered := fun hun response hstore => by
        obtain ⟨hholds, hloads⟩ := h.recovered hun response hstore
        have htime := (hs.store.response code response hstore).2.2
        exact ⟨hholds, hloads.mono fun hr => lookup_collect hnow hr htime⟩ }

/-- **A settled response stays settled**, if a crash finds it in the store. -/
theorem Settled.next (hset : Settled s code response) (h : Settles s code)
    (hs : s.Sound allowedRetries) (hnext : Next allowedRetries s e s')
    (hsave : SavesOutcomes code ⟨s, e, s'⟩) : Settled s' code response := by
  cases hnext with
  | crash =>
    refine .inr ⟨List.forall_mem_nil _, ?_⟩
    rcases hset with ⟨t, ht, ho⟩ | ⟨-, hstore⟩
    · exact hsave t ht _ ho rfl
    · exact hstore
  | recover hrec =>
    rcases hset with ⟨t, ht, ho⟩ | ⟨hun, hstore⟩
    · refine .inl ⟨t, ?_, ho⟩
      rw [hrec.threads_eq (c := .none) (d := s')]
      exact List.mem_append_left _ ht
    · refine .inr ⟨fun t ht o ho => ?_, by rw [hrec.store_eq]; exact hstore⟩
      rcases hrec.threads ht with ht | ⟨r, rs, -, -, rfl⟩
      · exact hun t ht o ho
      · cases ho
  | submit =>
    rcases hset with ⟨t, ht, ho⟩ | ⟨hun, hstore⟩
    · exact .inl ⟨t, List.mem_append_left _ ht, ho⟩
    · exact .inr ⟨forall_mem_concat hun nofun, hstore⟩
  | @run i c t t' s₁ new ht _ hstep =>
    rcases hset with hex | ⟨hun, hstore⟩
    · exact .inl (hstep.exists_outcome ht hex)
    · -- nobody has the request, so nothing is recorded or stored
      have hmem := List.mem_of_getElem? ht
      have hnot := h.not_carries hun hstore hmem
      rcases hstep.response_cases (hs.threads t hmem) code with ⟨-, hsame, hout⟩ |
        ⟨o, -, -, -, hcarries, -⟩ | ⟨o, -, -, ho⟩
      · refine .inr ⟨fun u hu o ho => ?_, hsame.trans hstore⟩
        rcases hstep.outcome_cases ht hu ho with rfl | ⟨j, -, hj⟩
        · exact hun t hmem o (hout o ho)
        · exact hun u (List.mem_of_getElem? hj) o ho
      · simp [hnot] at hcarries
      · simp [carries_of_outcome ho] at hnot
  | read | collect hlock hnow => exact hset

theorem settles_of_run (h : (asyncProxy allowedRetries).Run tr s)
    (hscan : ∀ st ∈ tr, ScansOthers st) (code : Bytes) : Settles s code := by
  refine h.invariant (I := fun _ s => Settles s code) (G := ScansOthers) (fun s hs => ?_)
    (fun tr s e s' hrun hI hscan hnext =>
      hI.next (sound_of_run hrun) (next_cases hnext) hscan) hscan
  rw [hs.2]
  exact ⟨⟨Nat.zero_le _, fun _ => List.forall_mem_nil _⟩, fun _ => List.forall_mem_nil _, nofun,
    List.forall_mem_nil _, List.forall_mem_nil _, List.forall_mem_nil _, nofun,
    fun _ _ _ => ⟨List.forall_mem_nil _, trivial⟩⟩

/-- If a response is settled when something happens, then it is settled ever after. -/
theorem settled_of_run {F : Machine.Step Proxy Event → BufferedResponse → Prop}
    (hF : ∀ s e s', Settles s code → Next allowedRetries s e s' →
      ∀ response, F ⟨s, e, s'⟩ response →
      Settled s' code response) (h : (asyncProxy allowedRetries).Run tr s)
    (hscan : ∀ st ∈ tr, ScansOthers st) (hsave : ∀ st ∈ tr, SavesOutcomes code st) :
    tr.Pairwise fun later earlier => ∀ response, F earlier response →
      Settles later.src code ∧ Settled later.src code response := by
  have hinv : (∀ st ∈ tr, ∀ response, F st response → Settled s code response) ∧
      tr.Pairwise fun later earlier => ∀ response, F earlier response →
        Settles later.src code ∧ Settled later.src code response := by
    refine (h.invariant (I := fun tr s => Settles s code ∧
        (∀ st ∈ tr, ∀ response, F st response → Settled s code response) ∧
        tr.Pairwise fun later earlier => ∀ response, F earlier response →
          Settles later.src code ∧ Settled later.src code response)
      (G := fun st => ScansOthers st ∧ SavesOutcomes code st) (fun s hs => ?_)
      (fun tr s e s' hrun hI hG hnext => ?_) fun st hst => ⟨hscan st hst, hsave st hst⟩).2
    · exact ⟨settles_of_run (.init hs) (List.forall_mem_nil _) code, List.forall_mem_nil _, .nil⟩
    · obtain ⟨hsettles, hset, hpair⟩ := hI
      have hsound := sound_of_run hrun
      have hnext := next_cases hnext
      refine ⟨hsettles.next hsound hnext hG.1, fun st hst response hr => ?_, ?_⟩
      · rcases List.mem_cons.1 hst with rfl | hst
        · exact hF s e s' hsettles hnext response hr
        · exact (hset st hst response hr).next hsettles hsound hnext hG.2
      · exact List.pairwise_cons.2 ⟨fun st hst response hr =>
          ⟨hsettles, hset st hst response hr⟩, hpair⟩
  exact hinv.2

end

/-- **Outcomes are final**, in every run in which each response that is recorded at a crash is in
the store, and the scan finds only requests of earlier processes, each once. -/
theorem outcomesFinal {allowedRetries : ℤ} {tr : Trace} {s : Proxy}
    (h : (asyncProxy allowedRetries).Run tr s) (hscan : ∀ st ∈ tr, ScansOthers st) (code : Bytes)
    (hsave : ∀ st ∈ tr, SavesOutcomes code st) : OutcomesFinal allowedRetries tr code := by
  have hread : ∀ s e s', Settles s code → Next allowedRetries s e s' → ∀ response,
      found code ⟨s, e, s'⟩ = some response → Settled s' code response := by
    intro s e s' hsettles hnext response hfound
    cases hnext with
    | read => exact hsettles.settled (lookup_of_found hfound)
    | _ => cases hfound
  refine (settled_of_run (F := fun st response => found code st = some response)
    hread h hscan hsave).imp fun {later earlier} hset response hfound => ?_
  obtain ⟨hsettles, hset⟩ := hset response hfound
  refine ⟨hset.not_fires hsettles, fun response' hfound' => ?_⟩
  exact hset.eq_of_lookup hsettles (lookup_of_found hfound')

instance (code : Bytes) (st : Machine.Step Proxy Event) : Decidable (SavesOutcomes code st) := by
  obtain ⟨src, event, dst⟩ := st
  cases event with
  | crash =>
    exact inferInstanceAs (Decidable (∀ t ∈ src.threads, ∀ o ∈ t.outcome, o.1 = code →
      src.store.responseOf code = some o.2))
  | _ => exact .isTrue trivial

instance (allowedRetries : ℤ) (tr : Trace) (code : Bytes) :
    Decidable (OutcomesFinal allowedRetries tr code) :=
  inferInstanceAs (Decidable (tr.Pairwise _))

/-- The calls of the store succeed. -/
def Event.storeSucceeds : Event → Bool
  | .run _ (.store .ok) => true
  | .run _ (.store _) => false
  | _ => true

/-- A request is executed, its response is read, and after a crash it is read again. -/
theorem outcomesFinal_of_stored : ∃ tr s, (asyncProxy 1).Run tr s ∧
    tr.countP (fun st => (found [0x61] st).isSome) = 2 ∧
    tr.countP (fun st => st.event.isCrash) = 1 ∧ OutcomesFinal 1 tr [0x61] := by
  obtain ⟨tr, s, hrun, hfound, hcrash, hscan, hsave⟩ : ∃ tr s, (asyncProxy 1).Run tr s ∧
      tr.countP (fun st => (found [0x61] st).isSome) = 2 ∧
      tr.countP (fun st => st.event.isCrash) = 1 ∧
      (∀ st ∈ tr, ScansOthers st) ∧ ∀ st ∈ tr, SavesOutcomes [0x61] st :=
    Machine.exists_run_of_play (List.flatten [recoveryWith [] [], submission 0 [0x61],
      execution 1 [0x21] .ok, [.read [0x61], .crash], recoveryWith [[0x61]] [], [.read [0x61]]])
      (init_empty 1) (by decide +kernel)
  exact ⟨tr, s, hrun, hfound, hcrash, outcomesFinal hrun hscan [0x61] hsave⟩

/-- The attempts are used up and the client reads so. After a crash the request is tried again. -/
theorem exists_reexecuted : ∃ tr s, (asyncProxy 1).Run tr s ∧
    (∀ st ∈ tr, st.event.storeSucceeds = true) ∧ (∀ st ∈ tr, ScansOthers st) ∧
    (∃ st ∈ tr, found [0x61] st = some failedManyTimes) ∧ ¬ OutcomesFinal 1 tr [0x61] :=
  Machine.exists_run_of_play (List.flatten [recoveryWith [] [], submission 0 [0x61],
    [.run 1 .none, .run 1 (.returned .noEndpoint 0), .run 1 .none, .run 2 .none, .run 2 .none,
      .read [0x61], .crash], recoveryWith [] [[0x61]], [.run 0 .none]])
    (init_empty 1) (by decide +kernel)

/-! ## What the client is told -/

/-- The step records the answer of a function. -/
def RecordsAnswer (code : Bytes) (st : Machine.Step Proxy Event)
    (response : BufferedResponse) : Prop :=
  ∃ i c r status body now, st.event = .run i c ∧
    st.src.threads[i]? = some (.record r (.answered status body) now) ∧ r.code = code ∧
    response = r.response (.answered status body) now

section

variable {allowedRetries : ℤ} {s s' : Proxy} {code : Bytes} {response : BufferedResponse}

theorem RecordsAnswer.settled {e : Event} (h : RecordsAnswer code ⟨s, e, s'⟩ response)
    (hnext : Next allowedRetries s e s') : Settled s' code response := by
  obtain ⟨i, c, r, status, body, now, rfl, hi, rfl, rfl⟩ := h
  cases hnext with
  | @run _ _ t t' s₁ new ht _ hstep =>
    obtain rfl := Option.some.inj (ht.symm.trans hi)
    cases hstep with
    | record hlock => exact .inl ⟨_, mem_advance_self _ _ ht, rfl⟩

theorem recorded_cases {st : Machine.Step Proxy Event} {a : ℤ × Bytes}
    (h : recorded code st = some a) (hs : st.src.Sound allowedRetries) :
    (∃ response, RecordsAnswer code st response ∧ response.body = a.2 ∧
      inClock response.timestamp = true) ∨ a.1 = 500 := by
  unfold recorded at h
  split at h
  next i c he =>
    split at h
    next r status body now hi =>
      obtain ⟨hcode, ⟨⟩⟩ := Option.ite_none_right_eq_some.1 h
      refine .inl ⟨_, ⟨i, c, r, status, body, now, he, hi, hcode, rfl⟩, rfl, ?_⟩
      exact (hs.threads _ (List.mem_of_getElem? hi)).2.2
    next r hi =>
      cases (Option.ite_none_right_eq_some.1 h).2
      exact .inr rfl
    next => cases h
  next => cases h

theorem answer_eq {st : Machine.Step Proxy Event} {w : ResponseWriter}
    (h : answerTo code st = some w) : w = readHandler st.src.responses code := by
  unfold answerTo at h
  split at h
  · exact (Option.some.inj (Option.ite_none_right_eq_some.1 h).2).symm
  · cases h

theorem readHandler_status (m : Responses) (code : Bytes) :
    (readHandler m code).status = if (m.lookup code).isSome then some 200 else some 204 := by
  unfold readHandler
  cases m.lookup code <;> rfl

theorem readHandler_of_lookup {m : Responses} (h : m.lookup code = some response) :
    readHandler m code = ⟨some 200, response.body⟩ := by
  simp [readHandler, h, fillResponseWithBufferedResponse, ResponseWriter.writeHeader]

end

/-- **A client who reads is told the recorded status and body exactly if the status is 200**, in the
runs in which outcomes are final and once the responses are loaded. -/
theorem answers_iff {allowedRetries : ℤ} {tr : Trace} {s : Proxy}
    (h : (asyncProxy allowedRetries).Run tr s) (hscan : ∀ st ∈ tr, ScansOthers st) (code : Bytes)
    (hsave : ∀ st ∈ tr, SavesOutcomes code st) :
    tr.Pairwise fun later earlier => ∀ a ∈ recorded code earlier, ∀ w ∈ answerTo code later,
      later.src.recovery.loaded = true → (w = ⟨some a.1, a.2⟩ ↔ a.1 = 200) := by
  have hpair := settled_of_run (F := RecordsAnswer code)
    (fun s e s' _ hnext response hr => hr.settled hnext) h hscan hsave
  refine hpair.imp_of_mem fun {later earlier} _ hmem hset a ha w hw hloaded => ?_
  obtain ⟨tr', -, hrun⟩ := h.src hmem
  rw [answer_eq hw]
  rcases recorded_cases ha (sound_of_run hrun) with ⟨response, hr, hbody, htime⟩ | hfailed
  · obtain ⟨hsettles, hset⟩ := hset response hr
    rw [readHandler_of_lookup (hset.lookup hsettles htime hloaded), hbody]
    constructor
    · intro heq
      injection heq with hstatus
      exact (Option.some.inj hstatus).symm
    · intro hstatus
      rw [hstatus]
  · have hne : readHandler later.src.responses code ≠ ⟨some a.1, a.2⟩ := by
      intro heq
      have hstatus := readHandler_status later.src.responses code
      rw [heq, hfailed] at hstatus
      split at hstatus <;> cases hstatus
    rw [hfailed] at hne ⊢
    exact iff_of_false hne (by decide)

instance (tr : Trace) (code : Bytes) : Decidable (Transparent tr code) :=
  inferInstanceAs (Decidable (tr.Pairwise _))

/-- A request is answered with 200, and after a crash its response is read. -/
theorem answers_of_ok : ∃ tr s, (asyncProxy 1).Run tr s ∧
    (∃ st ∈ tr, recorded [0x61] st = some (200, [0x21])) ∧
    (∃ st ∈ tr, answerTo [0x61] st = some ⟨some 200, [0x21]⟩) ∧
    tr.Pairwise fun later earlier => ∀ a ∈ recorded [0x61] earlier, ∀ w ∈ answerTo [0x61] later,
      later.src.recovery.loaded = true → (w = ⟨some a.1, a.2⟩ ↔ a.1 = 200) := by
  obtain ⟨tr, s, hrun, hrecorded, hanswer, hscan, hsave⟩ : ∃ tr s, (asyncProxy 1).Run tr s ∧
      (∃ st ∈ tr, recorded [0x61] st = some (200, [0x21])) ∧
      (∃ st ∈ tr, answerTo [0x61] st = some ⟨some 200, [0x21]⟩) ∧
      (∀ st ∈ tr, ScansOthers st) ∧ ∀ st ∈ tr, SavesOutcomes [0x61] st :=
    Machine.exists_run_of_play (List.flatten [recoveryWith [] [], submission 0 [0x61],
      execution 1 [0x21] .ok, [.crash], recoveryWith [[0x61]] [], [.read [0x61]]])
      (init_empty 1) (by decide +kernel)
  exact ⟨tr, s, hrun, hrecorded, hanswer, answers_iff hrun hscan [0x61] hsave⟩

/-- A function answers 404, and the attempts for another request are used up. The client is told 200
of both. -/
theorem exists_status_lost : ∃ tr s, (asyncProxy 1).Run tr s ∧
    (∀ st ∈ tr, st.event.storeSucceeds = true ∧ st.event.isCrash = false) ∧
    (∃ st ∈ tr, recorded [0x61] st = some (404, [0x21])) ∧ ¬ Transparent tr [0x61] ∧
    (∃ st ∈ tr, (recorded [0x62] st).map Prod.fst = some 500) ∧ ¬ Transparent tr [0x62] :=
  Machine.exists_run_of_play (List.flatten [recoveryWith [] [], submission 0 [0x61],
    [.run 1 .none, .run 1 (.returned (.answered 404 [0x21]) 0), .run 1 .none, .run 1 (.store .ok),
      .run 1 (.store .ok), .read [0x61]], submission 2 [0x62],
    [.run 3 .none, .run 3 (.returned .noEndpoint 0), .run 3 .none, .run 4 .none, .run 4 .none,
      .read [0x62]]])
    (init_empty 1) (by decide +kernel)

end Dirigent.AsyncProxy
