import Dirigent.AsyncProxy.Recovery

/-!
# No request is executed twice

The servers accept requests while the recovery still reads the store. A request that is stored
before `ScanBufferedRequests` has gone through its pages may be found by it, and is put on the
channel by its handler as well. A scan may also return a key twice.

A process holds a request in a handler that has not put it on the channel, in the lists of the
recovery, or in a goroutine. Every statement passes a request on from one holder to the next, so
there is never more than one for a code (`Single`), if the recovery finds each request once and none
of the process itself. The number of attempts is then read off from the goroutine that has the
request, or had it last.

* `Single` — a code has one holder; it is kept also by crashes.
* `Counted` — what the steps since the start have done for a code is what its goroutines say.
* **`executedOnce`** — each request is put on the channel once for its first attempt, is tried at
  most `AllowedRetries` times, and is not tried again after an attempt that returned OK.
* `exists_twice` — a request is stored before the keys are looked up.
-/

namespace Dirigent.AsyncProxy

open Threads

/-! ## The property -/

/-- The request that a step puts on the channel for its first attempt. -/
def firstPut (st : Machine.Step Proxy Event) : Option BufferedRequest :=
  match st.event with
  | .recover _ =>
    match st.src.recovery with
    | .resend (r :: _) => if (st.src.responses.lookup r.code).isSome then none else some r
    | _ => none
  | .run i _ =>
    match st.src.threads[i]? with
    | some (.putRequest r) => some r
    | _ => none
  | _ => none

/-- The request for which a step runs `fireRequest`. -/
def fires (allowedRetries : ℤ) (st : Machine.Step Proxy Event) : Option BufferedRequest :=
  match st.event with
  | .run i _ =>
    match st.src.threads[i]? with
    | some (.attempt r) => if r.numberTries < allowedRetries then some r else none
    | _ => none
  | _ => none

/-- The request for which `fireRequest` returns OK. -/
def returnsOK (st : Machine.Step Proxy Event) : Option BufferedRequest :=
  match st.event with
  | .run i (.returned o _) =>
    match st.src.threads[i]? with
    | some (.fire r) => if (fireRequest r o).statusCode = 200 then some r else none
    | _ => none
  | _ => none

def isOf (code : Bytes) (r : Option BufferedRequest) : Bool := r.any fun r => decide (r.code = code)

/-- The state in which a run has started. -/
def start (tr : Trace) (s : Proxy) : Proxy := (tr.getLast?.map (·.src)).getD s

/-- What a run does for a code. -/
structure ExecutedOnce (allowedRetries : ℤ) (tr : Trace) (s : Proxy) (code : Bytes) : Prop where
  atMostOnce : tr.countP (fun st => isOf code (firstPut st)) ≤ 1
  accepted : Accepted tr code → tr.countP (fun st => isOf code (firstPut st)) = 1
  recovered : s.recovery = .serving → ((start tr s).store.requestOf code).isSome = true →
    (start tr s).store.responseOf code = none → tr.countP (fun st => isOf code (firstPut st)) = 1
  attempts : tr.countP (fun st => isOf code (fires allowedRetries st)) ≤ allowedRetries.toNat
  final : tr.Pairwise fun later earlier =>
    isOf code (returnsOK earlier) = true → isOf code (fires allowedRetries later) = false

/-- The code for which a handler of this process has been called. -/
def Point.submission : Point → Option Bytes
  | .persistRequest r | .putRequest r => some r.code
  | .answer code | .accepted code | .refused code => some code
  | _ => none

/-- The keys with which a step ends the scan of `ScanBufferedRequests`. -/
def keysFound (st : Machine.Step Proxy Event) : Option (List Bytes) :=
  match st.src.recovery, st.dst.recovery with
  | .scanRequests _, .readRequests ks _ => some ks
  | _, _ => none

/-- The condition: `ScanBufferedRequests` finds each key once, and none of a request that was
submitted to this process. -/
def ScansOthers (st : Machine.Step Proxy Event) : Prop :=
  ∀ ks ∈ keysFound st, ks.Nodup ∧
    ∀ t ∈ st.src.threads, ∀ code ∈ t.submission, requestKey code ∉ ks

instance (st : Machine.Step Proxy Event) : Decidable (ScansOthers st) :=
  inferInstanceAs (Decidable (∀ ks ∈ keysFound st, _ ∧ _))

/-! ## Holders -/

/-- The request that a handler has to put on the channel. -/
def Point.queued : Point → Option BufferedRequest
  | .persistRequest r | .putRequest r => some r
  | _ => none

/-- The request that a goroutine has taken from the channel. -/
def Point.carried : Point → Option BufferedRequest
  | .attempt r | .fire r | .exhausted r | .gaveUp r | .record r _ _ | .persistResponse r _
  | .deleteRequest r _ | .finished r _ | .retry r => some r
  | _ => none

def Point.holds (code : Bytes) (t : Point) : Bool := isOf code t.queued || isOf code t.carried

/-- How often the code is in the lists of the recovery. -/
def Recovery.holds (code : Bytes) : Recovery → ℕ
  | .readRequests ks rs => ks.count (requestKey code) + rs.countP fun r => decide (r.code = code)
  | .resend rs => rs.countP fun r => decide (r.code = code)
  | _ => 0

/-- `ScanBufferedRequests` has not been called. -/
def Recovery.beforeScan : Recovery → Bool
  | .readRequests _ _ | .resend _ | .serving => false
  | _ => true

/-- A code has one holder. Before the scan this comes from a handler of the process. -/
structure Single (s : Proxy) (code : Bytes) : Prop where
  holders : s.threads.countP (Point.holds code) + s.recovery.holds code ≤ 1
  origin : s.recovery.beforeScan = true → ∀ t ∈ s.threads, t.holds code = true →
    ∃ u ∈ s.threads, u.submission = some code

section

variable {allowedRetries : ℤ} {s s' : Proxy} {t t' : Point} {new : List Point} {code : Bytes}
  {tr : Trace}

variable {r : BufferedRequest} {issued : List Bytes} {i : ℕ} {p : Recovery} {e : Event} {c : Choice}
  {d : Proxy} {st : Machine.Step Proxy Event}

theorem isOf_some : isOf code (some r) = decide (r.code = code) := rfl

/-- A statement passes a request on, or makes one with a new code. -/
theorem Steps.holds (h : Steps allowedRetries s t s' t' new) (code : Bytes) :
    (if t'.holds code then 1 else 0) + new.countP (Point.holds code) ≤
        (if t.holds code then 1 else 0) ∨
      (code ∉ s.issued ∧ t.holds code = false ∧ new = []) := by
  cases h with
  | @newCode request c now hvalid hfresh =>
    by_cases hcode : c = code
    · exact .inr ⟨hcode ▸ hfresh, rfl, rfl⟩
    · left
      simp [Point.holds, Point.queued, Point.carried, isOf, bufferedRequestFromRequest, hcode]
  | persistRequest t' ht' =>
    left
    rcases ht' with rfl | rfl <;> simp [Point.holds, Point.queued, Point.carried, isOf]
  | _ =>
    left
    simp [Point.holds, Point.queued, Point.carried, isOf]

theorem Steps.submission (h : Steps allowedRetries s t s' t' new)
    (hcode : t.submission = some code) : t'.submission = some code := by
  cases h with
  | persistRequest t' ht' => rcases ht' with rfl | rfl <;> exact hcode
  | persistRequestFails | putRequest hhandling | answer => exact hcode
  | _ => cases hcode

/-- A request that a statement passes on was held before, or it is one of the handler. -/
theorem Steps.origin (h : Steps allowedRetries s t s' t' new)
    (hu : t'.holds code = true ∨ ∃ u ∈ new, u.holds code = true) :
    t.holds code = true ∨ t'.submission = some code := by
  cases h with
  | newCode hvalid hfresh =>
    right
    simpa [Point.holds, Point.queued, Point.carried, isOf, Point.submission] using hu
  | persistRequest t' ht' =>
    left
    rcases ht' with rfl | rfl
    · simpa [Point.holds, Point.queued, Point.carried, isOf] using hu
    · simp [Point.holds, Point.queued, Point.carried, isOf] at hu
  | persistRequestFails | answer => simp [Point.holds, Point.queued, Point.carried, isOf] at hu
  | _ =>
    left
    simpa [Point.holds, Point.queued, Point.carried, isOf] using hu

theorem Point.Sound.issued_of_holds (h : t.Sound allowedRetries issued)
    (hholds : t.holds code = true) : code ∈ issued := by
  have hcode : ∀ {r : BufferedRequest}, r.Sound issued → isOf code (some r) = true →
      code ∈ issued := by
    intro r hr hof
    rw [isOf_some, decide_eq_true_eq] at hof
    exact hof ▸ hr.issued
  cases t with
  | newCode request | answer c | accepted c | refused c | passedOn => cases hholds
  | persistRequest r | putRequest r =>
    exact hcode h.1 (by simpa [Point.holds, Point.queued, Point.carried, isOf] using hholds)
  | _ => exact hcode h.1 hholds

theorem Proxy.Sound.holds_eq_zero (hs : s.Sound allowedRetries) (hfresh : code ∉ s.issued) :
    s.threads.countP (Point.holds code) = 0 ∧ s.recovery.holds code = 0 := by
  have hcount : ∀ {rs : List BufferedRequest}, (∀ r ∈ rs, r.Sound s.issued ∧ r.numberTries = 0) →
      (rs.countP fun r => decide (r.code = code)) = 0 := by
    intro rs hrs
    refine List.countP_eq_zero.2 fun r hr hcode => hfresh ?_
    rw [decide_eq_true_eq] at hcode
    exact hcode ▸ (hrs r hr).1.issued
  constructor
  · exact List.countP_eq_zero.2 fun t ht hholds => hfresh ((hs.threads t ht).issued_of_holds hholds)
  · have hrec := hs.recovery
    cases hp : s.recovery with
    | readRequests ks rs =>
      rw [hp] at hrec
      have hkeys : ks.count (requestKey code) = 0 := by
        refine List.count_eq_zero.2 fun hk => hfresh ?_
        obtain ⟨code', hissued, heq⟩ := hrec.1 _ hk
        exact requestKey_inj.1 heq ▸ hissued
      rw [Recovery.holds, hkeys, hcount hrec.2]
    | resend rs =>
      rw [hp] at hrec
      exact hcount hrec
    | _ => rfl

/-! ## One holder -/

theorem Single.run (h : Single s code) (hs : s.Sound allowedRetries) (ht : s.threads[i]? = some t)
    (hstep : Steps allowedRetries s t s' t' new) :
    Single { s' with threads := advance s.threads i t' new } code := by
  refine ⟨?_, fun hbefore u hu hholds => ?_⟩
  · change (advance s.threads i t' new).countP _ + s'.recovery.holds code ≤ 1
    rw [hstep.recovery_eq]
    have hcount := countP_advance (Point.holds code) ht t' new
    have hholders := h.holders
    rcases hstep.holds code with hle | ⟨hfresh, hnot, rfl⟩
    · omega
    · obtain ⟨hthreads, hrec⟩ := hs.holds_eq_zero hfresh
      have hone : (if t'.holds code = true then 1 else 0) ≤ 1 := by split <;> decide
      rw [List.countP_nil] at hcount
      omega
  · change s'.recovery.beforeScan = true at hbefore
    rw [hstep.recovery_eq] at hbefore
    -- the handler from which a request comes is still there
    have hkept : (∃ u ∈ s.threads, u.submission = some code) →
        ∃ u ∈ advance s.threads i t' new, u.submission = some code :=
      exists_mem_advance ht hstep.submission
    have hmoved : (t'.holds code = true ∨ ∃ u ∈ new, u.holds code = true) →
        ∃ u ∈ advance s.threads i t' new, u.submission = some code := by
      intro hmoved
      rcases hstep.origin hmoved with hold | hsub
      · exact hkept (h.origin hbefore t (List.mem_of_getElem? ht) hold)
      · exact ⟨t', mem_advance_self t' new ht, hsub⟩
    rcases mem_of_mem_advance hu with rfl | hsame | hnew
    · exact hmoved (.inl hholds)
    · exact hkept (h.origin hbefore u hsame hholds)
    · exact hmoved (.inr ⟨u, hnew, hholds⟩)

theorem Single.recover (h : Single s code) (hs : s.Sound allowedRetries) (hp : s.recovery = p)
    (hrec : Recovers s p s')
    (hothers : ∀ began ks, p = .scanRequests began → s'.recovery = .readRequests ks [] →
      ks.Nodup ∧ ∀ t ∈ s.threads, t.submission = some code → requestKey code ∉ ks) :
    Single s' code := by
  have hholders := h.holders
  have horigin := h.origin
  rw [hp] at hholders horigin
  have hrecovery := hs.recovery
  rw [hp] at hrecovery
  cases hrec with
  | scanResponses hscan | readResponse hread | loadResponses | startHandler =>
    exact ⟨hholders, fun _ => horigin rfl⟩
  | readResponseFails | readRequestFails => exact ⟨h.holders, h.origin⟩
  | @scanRequests began ks hscan =>
    refine ⟨?_, nofun⟩
    change s.threads.countP _ + (ks.count (requestKey code) + 0) ≤ 1
    change s.threads.countP _ + 0 ≤ 1 at hholders
    obtain ⟨hnodup, hothers⟩ := hothers began ks rfl rfl
    by_cases hkey : requestKey code ∈ ks
    · -- the request is none of this process
      have hzero : s.threads.countP (Point.holds code) = 0 := by
        refine List.countP_eq_zero.2 fun t ht hholds => ?_
        obtain ⟨u, hu, hsub⟩ := horigin rfl t ht hholds
        exact hothers u hu hsub hkey
      have hone := List.nodup_iff_count_le_one.1 hnodup (requestKey code)
      omega
    · rw [List.count_eq_zero.2 hkey]
      exact hholders
  | @readRequest k ks rs r hread =>
    refine ⟨?_, nofun⟩
    obtain ⟨code', -, rfl⟩ := hrecovery.1 k List.mem_cons_self
    have hcode := (hs.store.request code' r hread).2.1
    have hsame : (requestKey code' == requestKey code) = decide (r.code = code) := by
      rw [hcode, Bool.eq_iff_iff, beq_iff_eq, decide_eq_true_eq, requestKey_inj]
    change s.threads.countP _ + (ks.count _ + (rs ++ [r]).countP _) ≤ 1
    change s.threads.countP _ + ((requestKey code' :: ks).count _ + rs.countP _) ≤ 1 at hholders
    rw [List.count_cons, hsame] at hholders
    rw [List.countP_append, List.countP_singleton]
    omega
  | rlock => exact ⟨by simpa [Recovery.holds] using hholders, nofun⟩
  | @skip r rs hsome =>
    refine ⟨?_, nofun⟩
    change s.threads.countP _ + (r :: rs).countP _ ≤ 1 at hholders
    change s.threads.countP _ + rs.countP _ ≤ 1
    rw [List.countP_cons] at hholders
    omega
  | @resend r rs hnone =>
    refine ⟨?_, nofun⟩
    change s.threads.countP _ + (r :: rs).countP _ ≤ 1 at hholders
    change (s.threads ++ [Point.attempt r]).countP _ + rs.countP _ ≤ 1
    have hsame : Point.holds code (.attempt r) = decide (r.code = code) := rfl
    rw [List.countP_cons] at hholders
    rw [List.countP_append, List.countP_singleton, hsame]
    omega
  | runlock => exact ⟨hholders, nofun⟩

/-- **A step keeps the holder of a code the only one**, if the scan finds only requests of earlier
processes, each once. -/
theorem Single.next (h : Single s code) (hs : s.Sound allowedRetries)
    (hnext : Next allowedRetries s e s') (hscan : ScansOthers ⟨s, e, s'⟩) : Single s' code := by
  cases hnext with
  | crash => exact ⟨Nat.zero_le _, fun _ => List.forall_mem_nil _⟩
  | recover hrec =>
    refine h.recover hs rfl hrec fun began ks hp hp' => ?_
    obtain ⟨hnodup, hothers⟩ := hscan ks (by simp [keysFound, hp, hp'])
    exact ⟨hnodup, fun t ht hsub => hothers t ht code hsub⟩
  | @submit request =>
    have hnot : Point.holds code (.newCode request) = false := rfl
    refine ⟨?_, fun hbefore t ht hholds => ?_⟩
    · change (s.threads ++ [Point.newCode request]).countP _ + s.recovery.holds code ≤ 1
      rw [List.countP_append, List.countP_singleton, hnot]
      exact h.holders
    · rcases List.mem_append.1 ht with ht | ht
      · obtain ⟨u, hu, hsub⟩ := h.origin hbefore t ht hholds
        exact ⟨u, List.mem_append_left _ hu, hsub⟩
      · simp [List.mem_singleton.1 ht, hnot] at hholds
  | run ht hstep hsteps => exact h.run hs ht hsteps
  | read => exact h
  | collect hlock hnow => exact ⟨h.holders, h.origin⟩

/-! ## What has been done for a code -/

def Point.carries (code : Bytes) (t : Point) : Bool := isOf code t.carried

/-- How often `fireRequest` has been run for the request of a goroutine. -/
def Point.tried (code : Bytes) : Point → ℕ
  | .attempt r | .exhausted r | .gaveUp r | .retry r =>
    if r.code = code then r.numberTries.toNat else 0
  | .fire r | .record r _ _ | .persistResponse r _ | .deleteRequest r _ | .finished r _ =>
    if r.code = code then r.numberTries.toNat + 1 else 0
  | _ => 0

theorem Steps.carries (h : Steps allowedRetries s t s' t' new) (ht : s.threads[i]? = some t)
    (code : Bytes) :
    (if t'.carries code then 1 else 0) + new.countP (Point.carries code) =
      (if t.carries code then 1 else 0) +
        if isOf code (firstPut ⟨s, .run i c, d⟩) then 1 else 0 := by
  cases h with
  | persistRequest t' ht' =>
    rcases ht' with rfl | rfl <;> simp [Point.carries, Point.carried, isOf, firstPut, ht]
  | _ => simp [Point.carries, Point.carried, isOf, firstPut, ht]

theorem Steps.tried (h : Steps allowedRetries s t s' t' new)
    (hsound : t.Sound allowedRetries s.issued) (ht : s.threads[i]? = some t) (code : Bytes) :
    t'.tried code + (new.map (Point.tried code)).sum = t.tried code +
      if isOf code (fires allowedRetries ⟨s, .run i c, d⟩) then 1 else 0 := by
  cases h with
  | persistRequest t' ht' => rcases ht' with rfl | rfl <;> simp [Point.tried, isOf, fires, ht]
  | putRequest hhandling => simp [Point.tried, isOf, fires, ht, hsound.2]
  | exhaust htries => simp [Point.tried, isOf, fires, ht, not_lt.2 htries]
  | @attempt r htries =>
    by_cases hcode : r.code = code <;> simp [Point.tried, isOf, fires, ht, htries, hcode]
  | @fireFails r o hstatus =>
    have htries : (r.numberTries + 1).toNat = r.numberTries.toNat + 1 :=
      Int.toNat_add_nat hsound.1.tries 1
    simp [Point.tried, isOf, fires, ht, htries]
  | _ => simp [Point.tried, isOf, fires, ht]

/-- What the steps have done is what the goroutines say. -/
structure Counted (allowedRetries : ℤ) (tr : Trace) (s : Proxy) (code : Bytes) : Prop where
  puts : tr.countP (fun st => isOf code (firstPut st)) = s.threads.countP (Point.carries code)
  tries : tr.countP (fun st => isOf code (fires allowedRetries st)) =
    (s.threads.map (Point.tried code)).sum

theorem Recovers.threads_eq (h : Recovers s s.recovery s') :
    s'.threads = s.threads ++ ((firstPut ⟨s, .recover c, d⟩).map Point.attempt).toList := by
  generalize hp : s.recovery = p at h
  cases h with
  | skip hsome => simp [firstPut, hp, hsome]
  | resend hnone => simp [firstPut, hp, hnone]
  | _ => simp [firstPut, hp]

theorem Next.carries (h : Next allowedRetries s e s') (hcrash : e.isCrash = false) (code : Bytes) :
    s'.threads.countP (Point.carries code) =
      s.threads.countP (Point.carries code) + if isOf code (firstPut ⟨s, e, s'⟩) then 1 else 0 := by
  cases h with
  | crash => cases hcrash
  | @recover c s' hrec =>
    rw [hrec.threads_eq (c := c) (d := s'), List.countP_append]
    congr 1
    cases firstPut ⟨s, .recover c, s'⟩ with
    | none => rfl
    | some r => exact List.countP_singleton
  | submit => simp [firstPut, isOf, Point.carries, Point.carried]
  | @run i c t t' s₁ new ht hstep hsteps =>
    have hcount := countP_advance (Point.carries code) ht t' new
    have hcarries := hsteps.carries (c := c)
      (d := { s₁ with threads := advance s.threads i t' new }) ht code
    change (advance s.threads i t' new).countP _ = _
    omega
  | read | collect hlock hnow => simp [firstPut, isOf]

theorem Proxy.Sound.firstPut_tries (hs : s.Sound allowedRetries)
    (h : firstPut ⟨s, .recover c, d⟩ = some r) : r.numberTries = 0 := by
  have hrec := hs.recovery
  simp only [firstPut] at h
  split at h
  next r' rs hp =>
    rw [hp] at hrec
    split at h
    next => cases h
    next =>
      cases h
      exact (hrec r List.mem_cons_self).2
  next => cases h

theorem Next.tried (h : Next allowedRetries s e s') (hs : s.Sound allowedRetries)
    (hcrash : e.isCrash = false) (code : Bytes) : (s'.threads.map (Point.tried code)).sum =
      (s.threads.map (Point.tried code)).sum +
        if isOf code (fires allowedRetries ⟨s, e, s'⟩) then 1 else 0 := by
  cases h with
  | crash => cases hcrash
  | @recover c s' hrec =>
    have hnew : ∀ u ∈ ((firstPut ⟨s, .recover c, s'⟩).map Point.attempt).toList,
        u.tried code = 0 := by
      intro u hu
      obtain ⟨r, hr, rfl⟩ := Option.map_eq_some_iff.1 (Option.mem_toList.1 hu)
      simp [Point.tried, hs.firstPut_tries hr]
    rw [hrec.threads_eq (c := c) (d := s'), List.map_append, List.sum_append]
    congr 1
    exact List.sum_eq_zero (List.forall_mem_map.2 hnew)
  | submit => simp [fires, isOf, Point.tried]
  | @run i c t t' s₁ new ht hstep hsteps =>
    have hsum := sum_advance (Point.tried code) ht t' new
    have htried := hsteps.tried (c := c)
      (d := { s₁ with threads := advance s.threads i t' new })
      (hs.threads t (List.mem_of_getElem? ht)) ht code
    change ((advance s.threads i t' new).map _).sum = _
    omega
  | read | collect hlock hnow => simp [fires, isOf]

theorem Counted.next (h : Counted allowedRetries tr s code) (hs : s.Sound allowedRetries)
    (hnext : Next allowedRetries s e s') (hcrash : e.isCrash = false) :
    Counted allowedRetries (⟨s, e, s'⟩ :: tr) s' code := by
  refine ⟨?_, ?_⟩
  · rw [List.countP_cons, h.puts, hnext.carries hcrash code]
  · rw [List.countP_cons, h.tries, hnext.tried hs hcrash code]

/-! ### The number of attempts -/

theorem Point.Sound.tried_le (h : t.Sound allowedRetries issued) (code : Bytes) :
    t.tried code ≤ if t.carries code then allowedRetries.toNat else 0 := by
  have hbefore : ∀ {r : BufferedRequest}, r.numberTries ≤ max 0 allowedRetries →
      (if r.code = code then r.numberTries.toNat else 0) ≤
        if decide (r.code = code) then allowedRetries.toNat else 0 := by
    intro r hr
    by_cases hcode : r.code = code
    · simp only [hcode, if_true, decide_true]
      omega
    · simp [hcode]
  have hafter : ∀ {r : BufferedRequest}, r.Sound issued → r.numberTries < allowedRetries →
      (if r.code = code then r.numberTries.toNat + 1 else 0) ≤
        if decide (r.code = code) then allowedRetries.toNat else 0 := by
    intro r hr hlt
    have htries := hr.tries
    by_cases hcode : r.code = code
    · simp only [hcode, if_true, decide_true]
      omega
    · simp [hcode]
  cases t with
  | attempt r | retry r | exhausted r | gaveUp r => exact hbefore h.2
  | fire r => exact hafter h.1 h.2
  | record r o now | persistResponse r response | deleteRequest r response | finished r response =>
    exact hafter h.1 h.2.1
  | _ => exact Nat.zero_le _

theorem sum_tried_le {ts : List Point} (h : ∀ t ∈ ts, t.Sound allowedRetries issued)
    (code : Bytes) :
    (ts.map (Point.tried code)).sum ≤ ts.countP (Point.carries code) * allowedRetries.toNat := by
  induction ts with
  | nil => simp
  | cons t ts ih =>
    have ht := (h t List.mem_cons_self).tried_le code
    have hts := ih fun u hu => h u (List.mem_cons_of_mem _ hu)
    rw [List.map_cons, List.sum_cons, List.countP_cons, Nat.add_mul]
    split_ifs at ht ⊢ <;> omega

theorem holds_of_carries (h : t.carries code = true) : t.holds code = true := by
  rw [Point.holds, Bool.or_eq_true]
  exact .inr h

theorem Single.carries_le (h : Single s code) : s.threads.countP (Point.carries code) ≤ 1 := by
  have hle : s.threads.countP (Point.carries code) ≤ s.threads.countP (Point.holds code) :=
    List.countP_mono_left fun t _ ht => holds_of_carries ht
  have hholders := h.holders
  omega

/-! ### Attempts that returned OK -/

/-- The goroutine has had an attempt that counts. -/
def Point.answered (code : Bytes) : Point → Prop
  | .record r _ _ | .persistResponse r _ | .deleteRequest r _ | .finished r _ => r.code = code
  | _ => False

theorem Point.answered.carries (h : t.answered code) : t.carries code = true := by
  cases t with
  | record r o now | persistResponse r response | deleteRequest r response | finished r response =>
    exact decide_eq_true h
  | _ => cases h

theorem Steps.answered (h : Steps allowedRetries s t s' t' new) (ht : t.answered code) :
    t'.answered code := by
  cases h with
  | record hlock | persistResponse | persistResponseFails | deleteRequest | deleteRequestFails =>
    exact ht
  | _ => cases ht

/-- The goroutine whose attempt returned OK records the response. -/
theorem exists_answered_of_returnsOK (h : Next allowedRetries s e s')
    (hok : isOf code (returnsOK ⟨s, e, s'⟩) = true) : ∃ t ∈ s'.threads, t.answered code := by
  cases h with
  | @run i c t t' s₁ new ht hstep hsteps =>
    cases c with
    | returned o now =>
      cases t with
      | fire r =>
        simp only [returnsOK, ht] at hok
        split at hok
        next hstatus =>
          have hcode : r.code = code := by simpa [isOf] using hok
          refine ⟨t', mem_advance_self t' new ht, ?_⟩
          simp only [step, hstatus, true_or, if_true] at hstep
          split at hstep
          next =>
            cases hstep
            exact hcode
          next => cases hstep
        next => cases hok
      | _ => simp [returnsOK, ht, isOf] at hok
    | _ => simp [returnsOK, isOf] at hok
  | _ => simp [returnsOK, isOf] at hok

theorem Next.answered (h : Next allowedRetries s e s') (hcrash : e.isCrash = false)
    (hex : ∃ t ∈ s.threads, t.answered code) : ∃ t ∈ s'.threads, t.answered code := by
  have hgrown : ∀ ts, ∃ t ∈ s.threads ++ ts, t.answered code := fun ts =>
    hex.imp fun u hu => ⟨List.mem_append_left _ hu.1, hu.2⟩
  cases h with
  | crash => cases hcrash
  | @recover c s' hrec =>
    rw [hrec.threads_eq (c := c) (d := s')]
    exact hgrown _
  | submit => exact hgrown _
  | run ht hstep hsteps => exact exists_mem_advance ht hsteps.answered hex
  | read | collect hlock hnow => exact hex

theorem exists_of_fires (h : isOf code (fires allowedRetries ⟨s, e, s'⟩) = true) :
    ∃ (i : ℕ) (r : BufferedRequest), s.threads[i]? = some (.attempt r) ∧ r.code = code := by
  cases e with
  | run i c =>
    cases ht : s.threads[i]? with
    | none => simp [fires, ht, isOf] at h
    | some t =>
      cases t with
      | attempt r =>
        simp only [fires, ht] at h
        split at h
        next => exact ⟨i, r, ht, by simpa [isOf] using h⟩
        next => cases h
      | _ => simp [fires, ht, isOf] at h
  | _ => cases h

theorem Single.not_fires (h : Single s code) (ht : t ∈ s.threads)
    (hcarries : t.carries code = true) (hne : ∀ r, t ≠ .attempt r) :
    isOf code (fires allowedRetries ⟨s, e, s'⟩) = false := by
  by_contra hfires
  obtain ⟨i, r, hi, hcode⟩ := exists_of_fires ((Bool.not_eq_false _).mp hfires)
  obtain ⟨j, hj⟩ := List.mem_iff_getElem?.1 ht
  by_cases hji : j = i
  · subst hji
    exact hne r (Option.some.inj (hj.symm.trans hi))
  · have hnot := eq_false_of_countP_le_one h.carries_le hi (decide_eq_true hcode) hj hji
    rw [hcarries] at hnot
    cases hnot

/-! ### At least once -/

theorem PutBack.of_cons (h : PutBack (st :: tr) code)
    (hput : ∀ r, put st = some r → r.code ≠ code) : PutBack tr code := by
  obtain ⟨st', hst', r, hr, hcode⟩ := h
  rw [sinceStart, List.takeWhile_cons] at hst'
  split at hst'
  next =>
    rcases List.mem_cons.1 hst' with rfl | hst'
    · exact absurd hcode (hput r hr)
    · exact ⟨st', hst', r, hr, hcode⟩
  next => cases hst'

theorem put_cases (h : put st = some r) :
    firstPut st = some r ∨ .retry r ∈ st.src.threads := by
  obtain ⟨src, e, dst⟩ := st
  cases e with
  | recover c => exact .inl h
  | run i c =>
    cases ht : src.threads[i]? with
    | none => simp [put, ht] at h
    | some t =>
      cases t with
      | putRequest r' => exact .inl (by simpa [put, firstPut, ht] using h)
      | retry r' =>
        obtain rfl : r' = r := by simpa [put, ht] using h
        exact .inr (List.mem_of_getElem? ht)
      | _ => simp [put, ht] at h
  | _ => cases h

theorem carries_of_putBack_next (h : Next allowedRetries s e s') (hcrash : e.isCrash = false)
    (hk : PutBack tr code → 0 < s.threads.countP (Point.carries code))
    (hb : PutBack (⟨s, e, s'⟩ :: tr) code) : 0 < s'.threads.countP (Point.carries code) := by
  rw [h.carries hcrash code]
  by_cases hput : ∃ r, put ⟨s, e, s'⟩ = some r ∧ r.code = code
  · obtain ⟨r, hr, rfl⟩ := hput
    rcases put_cases hr with hfirst | hretry
    · rw [hfirst, isOf_some]
      simp
    · have hpos : 0 < s.threads.countP (Point.carries r.code) :=
        List.countP_pos_iff.2 ⟨_, hretry, decide_eq_true rfl⟩
      omega
  · have hpos := hk (hb.of_cons fun r hr hcode => hput ⟨r, hr, hcode⟩)
    omega

/-- No process has a response for the code. -/
structure Unanswered (s : Proxy) (code : Bytes) : Prop where
  store : s.store.responseOf code = none
  memory : s.responses.lookup code = none
  read : ∀ ks rs, s.recovery = .readResponses ks rs → ∀ r ∈ rs, r.code ≠ code

theorem Steps.unanswered (h : Steps allowedRetries s t s' t' new)
    (hsound : t.Sound allowedRetries s.issued) (hnot : ¬ t.handles code) (hu : Unanswered s code) :
    s'.store.responseOf code = none ∧ s'.responses.lookup code = none := by
  have hinsert : ∀ {r : BufferedRequest} {response : BufferedResponse}, ¬ r.code = code →
      (s.responses.insert r.code response).lookup code = none := by
    intro r response hne
    rw [AList.lookup_insert_ne (Ne.symm hne)]
    exact hu.memory
  cases h with
  | persistRequest t' ht' =>
    exact ⟨by rw [Store.responseOf_persistBufferedRequest]; exact hu.store, hu.memory⟩
  | exhausted hlock | record hlock => exact ⟨hu.store, hinsert hnot⟩
  | persistResponse =>
    refine ⟨?_, hu.memory⟩
    rw [Store.responseOf_persistBufferedResponse, hsound.2.2.1, if_neg (Ne.symm hnot)]
    exact hu.store
  | deleteRequest =>
    exact ⟨by rw [Store.responseOf_deleteBufferedRequest]; exact hu.store, hu.memory⟩
  | _ => exact ⟨hu.store, hu.memory⟩

theorem Recovers.unanswered (h : Recovers s p s') (hp : s.recovery = p)
    (hs : s.Sound allowedRetries) (hu : Unanswered s code) : Unanswered s' code := by
  have hrec := hs.recovery
  have hread := hu.read
  rw [hp] at hrec hread
  cases h with
  | scanResponses hscan =>
    refine ⟨hu.store, hu.memory, fun ks rs heq r hr => ?_⟩
    cases heq
    cases hr
  | @readResponse k ks rs r hr =>
    refine ⟨hu.store, hu.memory, fun ks' rs' heq r' hr' => ?_⟩
    cases heq
    rcases List.mem_append.1 hr' with hr' | hr'
    · exact hread _ _ rfl r' hr'
    · obtain rfl := List.mem_singleton.1 hr'
      obtain ⟨code', rfl⟩ := hrec.1 k List.mem_cons_self
      rw [(hs.store.response code' r' hr).2.1]
      intro hcode
      subst hcode
      rw [show s.store.readBufferedResponse (responseKey code') = none from hu.store] at hr
      cases hr
  | readResponseFails | readRequestFails => exact ⟨hu.store, hu.memory, hu.read⟩
  | loadResponses =>
    refine ⟨hu.store, ?_, nofun⟩
    by_contra hsome
    obtain ⟨r, hr⟩ := Option.ne_none_iff_exists'.1 hsome
    rcases lookup_load hr with ⟨hmem, hcode⟩ | hr
    · exact hread _ _ rfl r hmem hcode
    · rw [hu.memory] at hr
      cases hr
  | _ => exact ⟨hu.store, hu.memory, nofun⟩

theorem Handled.unanswered_next (hh : Handled tr s) (hs : s.Sound allowedRetries)
    (h : Next allowedRetries s e s') (hcrash : e.isCrash = false)
    (hu : PutBack tr code ∨ Unanswered s code) :
    PutBack (⟨s, e, s'⟩ :: tr) code ∨ Unanswered s' code := by
  rcases hu with hb | hu
  · exact .inl (hb.cons hcrash)
  · cases h with
    | crash => cases hcrash
    | recover hrec => exact .inr (hrec.unanswered rfl hs hu)
    | submit => exact .inr ⟨hu.store, hu.memory, hu.read⟩
    | @run i c t t' s₁ new ht hstep hsteps =>
      have hmem := List.mem_of_getElem? ht
      by_cases hhandles : t.handles code
      · exact .inl ((hh.threads t hmem code hhandles).cons rfl)
      · obtain ⟨hstore, hlookup⟩ := hsteps.unanswered (hs.threads t hmem) hhandles hu
        refine .inr ⟨hstore, hlookup, fun ks rs heq => ?_⟩
        exact hu.read ks rs (hsteps.recovery_eq ▸ heq)
    | read => exact .inr hu
    | collect hlock hnow =>
      refine .inr ⟨hu.store, ?_, hu.read⟩
      by_contra hsome
      obtain ⟨r, hr⟩ := Option.ne_none_iff_exists'.1 hsome
      have hold := lookup_of_lookup_collect hr
      rw [hu.memory] at hold
      cases hold

/-! ## Runs without a crash -/

theorem start_cons : start (⟨s, e, s'⟩ :: tr) s' = start tr s := by
  cases tr with
  | nil => rfl
  | cons st tr => simp [start, List.getLast?_cons]

structure Followed (allowedRetries : ℤ) (code : Bytes) (tr : Trace) (s : Proxy) : Prop where
  handled : Handled tr s
  single : Single s code
  counted : Counted allowedRetries tr s code
  carried : PutBack tr code → 0 < s.threads.countP (Point.carries code)
  accepted : Accepted tr code → PutBack tr code
  waiting : ((start tr s).store.requestOf code).isSome = true →
    PutBack tr code ∨ Waiting s code s.recovery
  unanswered : (start tr s).store.responseOf code = none → PutBack tr code ∨ Unanswered s code
  answered : ∀ st ∈ tr, isOf code (returnsOK st) = true → ∃ t ∈ s.threads, t.answered code
  final : tr.Pairwise fun later earlier =>
    isOf code (returnsOK earlier) = true → isOf code (fires allowedRetries later) = false

theorem followed_init (h : (asyncProxy allowedRetries).init s) (code : Bytes) :
    Followed allowedRetries code [] s := by
  obtain ⟨-, hrestart⟩ := h
  have hnot : ¬ PutBack [] code := fun ⟨st, hst, _⟩ => nomatch hst
  rw [hrestart]
  exact {
    handled := ⟨List.forall_mem_nil _, nofun⟩
    single := ⟨Nat.zero_le _, fun _ => List.forall_mem_nil _⟩
    counted := ⟨rfl, rfl⟩
    carried := fun hb => absurd hb hnot
    accepted := fun ⟨st, hst, _⟩ => nomatch hst
    waiting := fun hreq => .inr (.inl hreq)
    unanswered := fun hres => .inr ⟨hres, rfl, nofun⟩
    answered := List.forall_mem_nil _
    final := .nil }

theorem Followed.next (h : Followed allowedRetries code tr s) (hs : s.Sound allowedRetries)
    (hnext : Next allowedRetries s e s') (hscan : ScansOthers ⟨s, e, s'⟩)
    (hcrash : e.isCrash = false) : Followed allowedRetries code (⟨s, e, s'⟩ :: tr) s' where
  handled := h.handled.next hs hnext
  single := h.single.next hs hnext hscan
  counted := h.counted.next hs hnext hcrash
  carried := carries_of_putBack_next hnext hcrash h.carried
  accepted hacc := by
    rcases accepted_cons.1 hacc with hret | hacc
    · exact (h.handled.threads _ (exists_of_returnsCode hret).1 code rfl).cons hcrash
    · exact (h.accepted hacc).cons hcrash
  waiting hreq := by
    rw [start_cons] at hreq
    rcases h.waiting hreq with hb | hwait
    · exact .inl (hb.cons hcrash)
    · exact h.handled.waiting_next hs hnext hcrash hwait
  unanswered hres := by
    rw [start_cons] at hres
    exact h.handled.unanswered_next hs hnext hcrash (h.unanswered hres)
  answered st hst hok := by
    rcases List.mem_cons.1 hst with rfl | hst
    · exact exists_answered_of_returnsOK hnext hok
    · exact hnext.answered hcrash (h.answered st hst hok)
  final := by
    refine List.pairwise_cons.2 ⟨fun st hst hok => ?_, h.final⟩
    obtain ⟨t, ht, hanswered⟩ := h.answered st hst hok
    refine h.single.not_fires ht hanswered.carries fun r hr => ?_
    subst hr
    cases hanswered

end

/-- **No request is executed twice**, in every run without a crash in which the scan finds only
requests of earlier processes, each once. -/
theorem executedOnce {allowedRetries : ℤ} {tr : Trace} {s : Proxy}
    (h : (asyncProxy allowedRetries).Run tr s) (hcrash : ∀ st ∈ tr, st.event.isCrash = false)
    (hscan : ∀ st ∈ tr, ScansOthers st) (code : Bytes) : ExecutedOnce allowedRetries tr s code := by
  have hf : Followed allowedRetries code tr s := by
    refine h.invariant (I := Followed allowedRetries code)
      (G := fun st => ScansOthers st ∧ st.event.isCrash = false)
      (fun s hs => followed_init hs code) (fun tr s e s' hrun hI hG hnext => ?_)
      fun st hst => ⟨hscan st hst, hcrash st hst⟩
    exact hI.next (sound_of_run hrun) (next_cases hnext) hG.1 hG.2
  have hle := hf.single.carries_le
  have honce : PutBack tr code → tr.countP (fun st => isOf code (firstPut st)) = 1 := by
    intro hb
    have hpos := hf.carried hb
    rw [hf.counted.puts]
    omega
  refine ⟨?_, fun hacc => honce (hf.accepted hacc), fun hserving hreq hres =>
    honce ?_, ?_, hf.final⟩
  · rw [hf.counted.puts]
    exact hle
  · rcases hf.waiting hreq with hb | hwait
    · exact hb
    · -- the recovery has ended, so there is a response, and this was not there at the start
      rw [hserving] at hwait
      rcases hf.unanswered hres with hb | hu
      · exact hb
      · rw [show Waiting s code .serving = ((s.responses.lookup code).isSome = true) from rfl,
          hu.memory] at hwait
        cases hwait
  · rw [hf.counted.tries]
    calc (s.threads.map (Point.tried code)).sum
        ≤ s.threads.countP (Point.carries code) * allowedRetries.toNat :=
          sum_tried_le (sound_of_run h).threads code
      _ ≤ 1 * allowedRetries.toNat := Nat.mul_le_mul_right _ hle
      _ = allowedRetries.toNat := Nat.one_mul _

/-- An earlier process has left a request with the code `b`. -/
def leftOver : Proxy where
  store := (∅ : Store).persistBufferedRequest (bufferedRequestFromRequest {} [0x62] 0)
  issued := [[0x62]]

theorem init_leftOver (allowedRetries : ℤ) : (asyncProxy allowedRetries).init leftOver := by
  refine ⟨⟨fun code r hr => ?_, fun code r hr => ?_⟩, rfl⟩
  · simp only [leftOver, Store.requestOf_persistBufferedRequest] at hr
    split at hr
    next hcode =>
      cases hr
      subst hcode
      exact ⟨List.mem_cons_self, by decide, rfl⟩
    next => exact absurd ((sound_empty []).request code r hr).1 List.not_mem_nil
  · simp only [leftOver, Store.responseOf_persistBufferedRequest] at hr
    exact absurd ((sound_empty []).response code r hr).1 List.not_mem_nil

/-- The request that was left over and a new one are executed; the first attempt of the new one
fails. -/
theorem executedOnce_of_recovered : ∃ tr s, (asyncProxy 2).Run tr s ∧ s.recovery = .serving ∧
    ((start tr s).store.requestOf [0x62]).isSome = true ∧ Accepted tr [0x61] ∧
    tr.countP (fun st => isOf [0x61] (fires 2 st)) = 2 ∧ ∀ code, ExecutedOnce 2 tr s code := by
  obtain ⟨tr, s, hrun, hserving, hleft, hacc, hcount, hcrash, hscan⟩ :
      ∃ tr s, (asyncProxy 2).Run tr s ∧ s.recovery = .serving ∧
      ((start tr s).store.requestOf [0x62]).isSome = true ∧ Accepted tr [0x61] ∧
      tr.countP (fun st => isOf [0x61] (fires 2 st)) = 2 ∧
      (∀ st ∈ tr, st.event.isCrash = false) ∧ ∀ st ∈ tr, ScansOthers st :=
    Machine.exists_run_of_play (List.flatten [recoveryWith [] [[0x62]], execution 0 [0x21] .ok,
      submission 1 [0x61], [.run 2 .none, .run 2 (.returned .noEndpoint 0), .run 2 .none],
      execution 3 [0x21] .ok]) (init_leftOver 2) (by decide +kernel)
  exact ⟨tr, s, hrun, hserving, hleft, hacc, hcount, fun code =>
    executedOnce hrun hcrash hscan code⟩

/-- A request is stored before the keys are looked up, so that its handler and the recovery put it
on the channel. It is executed again after an attempt that returned OK. -/
theorem exists_twice : ∃ tr s, (asyncProxy 1).Run tr s ∧ (∀ st ∈ tr, st.event.isCrash = false) ∧
    tr.countP (fun st => isOf [0x61] (firstPut st)) = 2 ∧
    tr.countP (fun st => isOf [0x61] (fires 1 st)) = 2 ∧
    ¬ tr.Pairwise fun later earlier =>
      isOf [0x61] (returnsOK earlier) = true → isOf [0x61] (fires 1 later) = false :=
  Machine.exists_run_of_play (List.flatten
    [[.recover (.keys []), .recover .none, .recover .none, .submit {}, .run 0 (.code [0x61] 0),
        .run 0 (.store .ok), .recover (.keys [requestKey [0x61]]), .recover .none, .recover .none,
        .run 0 .none, .run 0 .none, .recover .none, .recover .none],
      [.run 1 .none, .run 1 (.returned (.answered 200 [0x21]) 0), .run 2 .none]])
    (init_empty 1) (by decide +kernel)

end Dirigent.AsyncProxy
