import Dirigent.AsyncProxy.Service

/-!
# No accepted request is lost

When the code of a request is returned to the client, the request is stored. Its goroutine writes
the response to memory and to the store and then deletes the request from the store, whether or not
the response was stored. After a crash the recovery has the store alone.

The proof follows a code through the recovery. Either the request has been put on the channel since
the process was started, or it is still ahead of `StartProxyServer`: in the store, among the keys,
among the records that have been read, or among the responses (`Waiting`). Only the goroutine of a
request deletes it, and this goroutine was started when the request was put on the channel.

* **`notLost`** — after the recovery there is a response, or the request has been put on the
  channel, if a request is deleted from the store only when its response is there.
* `exists_lost` — the response is not stored, the request is deleted, and the process crashes.
-/

namespace Dirigent.AsyncProxy

abbrev Trace := List (Machine.Step Proxy Event)

def Event.isCrash : Event → Bool
  | .crash => true
  | _ => false

/-- The steps since the process was started. -/
def sinceStart (tr : Trace) : Trace := tr.takeWhile fun st => !st.event.isCrash

/-- The request that a step puts on `RequestChannel`. -/
def put (st : Machine.Step Proxy Event) : Option BufferedRequest :=
  match st.event with
  | .recover _ =>
    match st.src.recovery with
    | .resend (r :: _) => if (st.src.responses.lookup r.code).isSome then none else some r
    | _ => none
  | .run i _ =>
    match st.src.threads[i]? with
    | some (.putRequest r) => some r
    | some (.retry r) => some r
    | _ => none
  | _ => none

/-- The code that a step returns to a client. -/
def returnsCode (st : Machine.Step Proxy Event) : Option Bytes :=
  match st.event with
  | .run i _ =>
    match st.src.threads[i]? with
    | some (.answer code) => some code
    | _ => none
  | _ => none

def Accepted (tr : Trace) (code : Bytes) : Prop := ∃ st ∈ tr, returnsCode st = some code

/-- The request has been put on the channel since the process was started. -/
def PutBack (tr : Trace) (code : Bytes) : Prop :=
  ∃ st ∈ sinceStart tr, ∃ r, put st = some r ∧ r.code = code

/-- After the recovery, each request that was accepted has a response or is on its way. -/
def NotLost (tr : Trace) (s : Proxy) : Prop :=
  s.recovery = .serving → ∀ code, Accepted tr code →
    (s.responses.lookup code).isSome = true ∨ PutBack tr code

/-- The condition: when a request is deleted from the store, its response is there. -/
def DeletesAnswered (st : Machine.Step Proxy Event) : Prop :=
  ∀ code ∈ st.src.issued, (st.src.store.requestOf code).isSome = true →
    st.dst.store.requestOf code = none → (st.src.store.responseOf code).isSome = true

/-! ## Where a code is -/

/-- The code is ahead of the recovery. -/
def Waiting (s : Proxy) (code : Bytes) : Recovery → Prop
  | .scanResponses =>
    (s.store.requestOf code).isSome = true ∨ (s.store.responseOf code).isSome = true
  | .readResponses ks rs =>
    (s.store.requestOf code).isSome = true ∨ responseKey code ∈ ks ∨ ∃ r ∈ rs, r.code = code
  | .startHandler =>
    (s.store.requestOf code).isSome = true ∨ (s.responses.lookup code).isSome = true
  | .scanRequests began => requestKey code ∈ began ∧ (s.store.requestOf code).isSome = true ∨
      (s.responses.lookup code).isSome = true
  | .readRequests ks rs =>
    (s.responses.lookup code).isSome = true ∨ requestKey code ∈ ks ∨ ∃ r ∈ rs, r.code = code
  | .resend rs => (s.responses.lookup code).isSome = true ∨ ∃ r ∈ rs, r.code = code
  | .serving => (s.responses.lookup code).isSome = true

/-- The goroutine works on a request that was put on the channel. -/
def Point.handles (code : Bytes) : Point → Prop
  | .attempt r | .fire r | .exhausted r | .gaveUp r | .record r _ _ | .persistResponse r _
  | .deleteRequest r _ | .finished r _ | .retry r => r.code = code
  | .answer code' | .accepted code' => code' = code
  | _ => False

/-- The handler has stored the request. -/
def Point.stored (code : Bytes) : Point → Prop
  | .putRequest r => r.code = code
  | .answer code' => code' = code
  | _ => False

/-- What a goroutine works on has been put on the channel since the process was started, and so has
what it leaves in memory. -/
structure Handled (tr : Trace) (s : Proxy) : Prop where
  threads : ∀ t ∈ s.threads, ∀ code, t.handles code → PutBack tr code
  memory : ∀ code r, s.responses.lookup code = some r → inClock r.timestamp = true ∨ PutBack tr code

/-- The codes that are accepted, or are about to be. -/
def Promised (tr : Trace) (s : Proxy) (code : Bytes) : Prop :=
  Accepted tr code ∨ ∃ t ∈ s.threads, t.stored code

structure Kept (tr : Trace) (s : Proxy) : Prop where
  handled : Handled tr s
  stored : ∀ code, Promised tr s code →
    (s.store.requestOf code).isSome = true ∨ (s.store.responseOf code).isSome = true
  waiting : ∀ code, Accepted tr code → PutBack tr code ∨ Waiting s code s.recovery

section

variable {allowedRetries : ℤ} {s s' : Proxy} {t t' : Point} {new : List Point} {code : Bytes}
  {tr : Trace} {st : Machine.Step Proxy Event}

theorem PutBack.cons (h : PutBack tr code) (hst : st.event.isCrash = false) :
    PutBack (st :: tr) code := by
  obtain ⟨st', hmem, hput⟩ := h
  refine ⟨st', ?_, hput⟩
  rw [sinceStart, List.takeWhile_cons, hst]
  exact List.mem_cons_of_mem _ hmem

theorem putBack_of_put {r : BufferedRequest} (hst : st.event.isCrash = false)
    (hput : put st = some r) : PutBack (st :: tr) r.code := by
  refine ⟨st, ?_, r, hput, rfl⟩
  rw [sinceStart, List.takeWhile_cons, hst]
  exact List.mem_cons_self

theorem accepted_cons :
    Accepted (st :: tr) code ↔ returnsCode st = some code ∨ Accepted tr code := by
  simp [Accepted]

variable {p : Recovery} {m : Responses} {r : BufferedResponse} {rs : List BufferedResponse}
  {u : Point} {e : Event}

theorem Waiting.mono (h : Waiting s code p)
    (hreq : (s.store.requestOf code).isSome = true → (s'.store.requestOf code).isSome = true)
    (hres : (s.store.responseOf code).isSome = true → (s'.store.responseOf code).isSome = true)
    (hmem : (s.responses.lookup code).isSome = true → (s'.responses.lookup code).isSome = true) :
    Waiting s' code p := by
  cases p with
  | scanResponses => exact h.imp hreq hres
  | readResponses ks rs => exact h.imp_left hreq
  | startHandler => exact h.imp hreq hmem
  | scanRequests began => exact h.imp (And.imp_right hreq) hmem
  | readRequests ks rs | resend rs => exact h.imp_left hmem
  | serving => exact hmem h

theorem isSome_lookup_insert {code code' : Bytes} (h : (m.lookup code).isSome = true) :
    ((m.insert code' r).lookup code).isSome = true := by
  by_cases hcode : code = code'
  · rw [hcode, AList.lookup_insert]
    rfl
  · rwa [AList.lookup_insert_ne hcode]

theorem isSome_lookup_load (h : (m.lookup code).isSome = true ∨ ∃ r ∈ rs, r.code = code) :
    ((rs.foldl (fun m r => m.insert r.code r) m).lookup code).isSome = true := by
  induction rs generalizing m with
  | nil => simpa using h
  | cons r rs ih =>
    apply ih
    rcases h with h | ⟨r', hr', hcode⟩
    · exact .inl (isSome_lookup_insert h)
    · rcases List.mem_cons.1 hr' with rfl | hr'
      · left
        rw [← hcode, AList.lookup_insert]
        rfl
      · exact .inr ⟨r', hr', hcode⟩

/-- Responses that are loaded come from the records or were there. -/
theorem lookup_load (h : (rs.foldl (fun m r => m.insert r.code r) m).lookup code = some r) :
    (r ∈ rs ∧ r.code = code) ∨ m.lookup code = some r := by
  induction rs generalizing m with
  | nil => exact .inr h
  | cons r' rs ih =>
    rcases ih h with ⟨hr, hcode⟩ | hm
    · exact .inl ⟨List.mem_cons_of_mem _ hr, hcode⟩
    · by_cases hcode : code = r'.code
      · rw [hcode, AList.lookup_insert] at hm
        cases hm
        exact .inl ⟨List.mem_cons_self, hcode.symm⟩
      · rw [AList.lookup_insert_ne hcode] at hm
        exact .inr hm

/-! ## What a goroutine does to a code -/

theorem Steps.handles (h : Steps allowedRetries s t s' t' new)
    (hu : t'.handles code ∨ ∃ u ∈ new, u.handles code) :
    t.handles code ∨ ∃ r, t = .putRequest r ∧ r.code = code := by
  cases h with
  | newCode hvalid hfresh | persistRequestFails => simp [Point.handles] at hu
  | persistRequest t' ht' => rcases ht' with rfl | rfl <;> simp [Point.handles] at hu
  | @putRequest r hhandling => exact .inr ⟨r, rfl, by simpa [Point.handles] using hu⟩
  | _ => exact .inl (by simpa [Point.handles] using hu)

theorem Steps.requestOf (h : Steps allowedRetries s t s' t' new)
    (hsome : (s.store.requestOf code).isSome = true) :
    (s'.store.requestOf code).isSome = true ∨ t.handles code := by
  cases h with
  | @persistRequest r t' ht' =>
    left
    rw [Store.requestOf_persistBufferedRequest]
    split
    · rfl
    · exact hsome
  | @persistResponse r response =>
    left
    rwa [Store.requestOf_persistBufferedResponse]
  | @deleteRequest r response =>
    by_cases hcode : code = r.code
    · exact .inr hcode.symm
    · left
      rwa [Store.requestOf_deleteBufferedRequest, if_neg hcode]
  | _ => exact .inl hsome

theorem Steps.responseOf (h : Steps allowedRetries s t s' t' new)
    (hsome : (s.store.responseOf code).isSome = true) :
    (s'.store.responseOf code).isSome = true := by
  cases h with
  | @persistRequest r t' ht' => rwa [Store.responseOf_persistBufferedRequest]
  | @persistResponse r response =>
    rw [Store.responseOf_persistBufferedResponse]
    split
    · rfl
    · exact hsome
  | @deleteRequest r response => rwa [Store.responseOf_deleteBufferedRequest]
  | _ => exact hsome

theorem Steps.isSome_lookup (h : Steps allowedRetries s t s' t' new)
    (hsome : (s.responses.lookup code).isSome = true) :
    (s'.responses.lookup code).isSome = true := by
  cases h with
  | exhausted hlock | record hlock => exact isSome_lookup_insert hsome
  | _ => exact hsome

theorem Steps.lookup (h : Steps allowedRetries s t s' t' new)
    (hr : s'.responses.lookup code = some r) :
    s.responses.lookup code = some r ∨ t.handles code := by
  have hinsert : ∀ {r' : BufferedRequest} {response : BufferedResponse},
      (s.responses.insert r'.code response).lookup code = some r →
      s.responses.lookup code = some r ∨ r'.code = code := by
    intro r' response hlookup
    by_cases hcode : code = r'.code
    · exact .inr hcode.symm
    · rw [AList.lookup_insert_ne hcode] at hlookup
      exact .inl hlookup
  cases h with
  | exhausted hlock | record hlock => exact hinsert hr
  | _ => exact .inl hr

theorem Steps.stored (h : Steps allowedRetries s t s' t' new)
    (hu : t'.stored code ∨ ∃ u ∈ new, u.stored code) :
    t.stored code ∨ (s'.store.requestOf code).isSome = true := by
  cases h with
  | @persistRequest r t' ht' =>
    rcases ht' with rfl | rfl
    · right
      obtain rfl : r.code = code := by simpa [Point.stored] using hu
      rw [Store.requestOf_persistBufferedRequest, if_pos rfl]
      rfl
    · simp [Point.stored] at hu
  | @putRequest r hhandling => exact .inl (by simpa [Point.stored] using hu)
  | _ => simp [Point.stored] at hu

/-! ## What the recovery does to a code -/

/-- The recovery goes on with the codes that were ahead of it. -/
theorem Recovers.waiting (h : Recovers s p s') (hp : s.recovery = p) (hs : s.Sound allowedRetries)
    (hwait : Waiting s code p) :
    Waiting s' code s'.recovery ∨ ∃ r rs, p = .resend (r :: rs) ∧ s.responses.lookup r.code = none ∧
      r.code = code := by
  have hrec := hs.recovery
  rw [hp] at hrec
  cases h with
  | scanResponses hscan =>
    refine .inl (hwait.imp_right fun hres => .inl ?_)
    exact (hscan _).2 (Store.mem_scanKeys_response.2 ⟨code, rfl, hres⟩)
  | @readResponse k ks rs r hread =>
    rcases hwait with hreq | hkey | ⟨r', hr', hcode⟩
    · exact .inl (.inl hreq)
    · rcases List.mem_cons.1 hkey with rfl | hkey
      · exact .inl (.inr (.inr ⟨r, by simp, (hs.store.response code r hread).2.1⟩))
      · exact .inl (.inr (.inl hkey))
    · exact .inl (.inr (.inr ⟨r', by simp [hr'], hcode⟩))
  | readResponseFails | readRequestFails =>
    change Waiting _ code s.recovery ∨ _
    rw [hp]
    exact .inl (hwait.mono id id id)
  | loadResponses =>
    refine .inl (hwait.imp_right fun hread => isSome_lookup_load (.inr ?_))
    rcases hread with hkey | hread
    · cases hkey
    · exact hread
  | startHandler =>
    refine .inl (hwait.imp_left fun hreq => ⟨?_, hreq⟩)
    exact Store.mem_scanKeys_request.2 ⟨code, rfl, hreq⟩
  | scanRequests hscan =>
    refine .inl (hwait.symm.imp_right fun hreq => .inl ?_)
    exact hscan.2 _ hreq.1 (Store.mem_scanKeys_request.2 ⟨code, rfl, hreq.2⟩)
  | @readRequest k ks rs r hread =>
    rcases hwait with hmem | hkey | ⟨r', hr', hcode⟩
    · exact .inl (.inl hmem)
    · rcases List.mem_cons.1 hkey with rfl | hkey
      · exact .inl (.inr (.inr ⟨r, by simp, (hs.store.request code r hread).2.1⟩))
      · exact .inl (.inr (.inl hkey))
    · exact .inl (.inr (.inr ⟨r', by simp [hr'], hcode⟩))
  | rlock =>
    refine .inl (hwait.imp_right fun hread => ?_)
    rcases hread with hkey | hread
    · cases hkey
    · exact hread
  | @skip r rs hsome =>
    rcases hwait with hmem | ⟨r', hr', hcode⟩
    · exact .inl (.inl hmem)
    · rcases List.mem_cons.1 hr' with rfl | hr'
      · exact .inl (.inl (hcode ▸ hsome))
      · exact .inl (.inr ⟨r', hr', hcode⟩)
  | @resend r rs hnone =>
    rcases hwait with hmem | ⟨r', hr', hcode⟩
    · exact .inl (.inl hmem)
    · rcases List.mem_cons.1 hr' with rfl | hr'
      · exact .inr ⟨r', rs, rfl, hnone, hcode⟩
      · exact .inl (.inr ⟨r', hr', hcode⟩)
  | runlock =>
    rcases hwait with hmem | ⟨r', hr', -⟩
    · exact .inl hmem
    · cases hr'

theorem Recovers.threads (h : Recovers s p s') (hu : u ∈ s'.threads) :
    u ∈ s.threads ∨ ∃ r rs, p = .resend (r :: rs) ∧ s.responses.lookup r.code = none ∧
      u = .attempt r := by
  cases h with
  | @resend r rs hnone =>
    rcases List.mem_append.1 hu with hu | hu
    · exact .inl hu
    · exact .inr ⟨r, rs, rfl, hnone, List.mem_singleton.1 hu⟩
  | _ => exact .inl hu

theorem Recovers.store_eq (h : Recovers s p s') : s'.store = s.store := by
  cases h <;> rfl

theorem Recovers.lookup (h : Recovers s p s') (hp : s.recovery = p) (hs : s.Sound allowedRetries)
    (hr : s'.responses.lookup code = some r) :
    s.responses.lookup code = some r ∨ inClock r.timestamp = true := by
  have hrec := hs.recovery
  rw [hp] at hrec
  cases h with
  | loadResponses =>
    rcases lookup_load hr with ⟨hmem, -⟩ | hr
    · exact .inr (hrec.2 r hmem).2
    · exact .inl hr
  | _ => exact .inl hr

/-! ## Steps -/

/-- The goroutines after a step, and what they work on. -/
theorem Handled.threads_next (hh : Handled tr s) (h : Next allowedRetries s e s')
    (hu : u ∈ s'.threads) (hhandles : u.handles code) :
    PutBack (⟨s, e, s'⟩ :: tr) code := by
  cases h with
  | crash => cases hu
  | recover h =>
    rcases h.threads hu with hu | ⟨r, rs, hp, hnone, rfl⟩
    · exact (hh.threads u hu code hhandles).cons rfl
    · obtain rfl : r.code = code := hhandles
      exact putBack_of_put rfl (by simp [put, hp, hnone])
  | submit =>
    rcases List.mem_append.1 hu with hu | hu
    · exact (hh.threads u hu code hhandles).cons rfl
    · obtain rfl := List.mem_singleton.1 hu
      cases hhandles
  | @run i c t t' s₁ new ht hstep h =>
    have hmoved : (t'.handles code ∨ ∃ u ∈ new, u.handles code) →
        PutBack (⟨s, .run i c, { s₁ with threads := Threads.advance s.threads i t' new }⟩ :: tr)
          code := by
      intro hmoved
      rcases h.handles hmoved with hhandles | ⟨r, rfl, rfl⟩
      · exact (hh.threads t (List.mem_of_getElem? ht) code hhandles).cons rfl
      · exact putBack_of_put rfl (by simp [put, ht])
    rcases Threads.mem_of_mem_advance hu with rfl | hsame | hnew
    · exact hmoved (.inl hhandles)
    · exact (hh.threads u hsame code hhandles).cons rfl
    · exact hmoved (.inr ⟨u, hnew, hhandles⟩)
  | read | collect hlock hnow => exact (hh.threads u hu code hhandles).cons rfl

theorem Handled.next (hh : Handled tr s) (hs : s.Sound allowedRetries)
    (h : Next allowedRetries s e s') : Handled (⟨s, e, s'⟩ :: tr) s' := by
  refine ⟨fun u hu code hhandles => hh.threads_next h hu hhandles, fun code r hr => ?_⟩
  cases h with
  | crash => cases hr
  | recover h =>
    rcases h.lookup rfl hs hr with hr | htime
    · exact (hh.memory code r hr).imp_right fun hb => hb.cons rfl
    · exact .inl htime
  | submit | read => exact (hh.memory code r hr).imp_right fun hb => hb.cons rfl
  | run ht hstep h =>
    rcases h.lookup hr with hr | hhandles
    · exact (hh.memory code r hr).imp_right fun hb => hb.cons rfl
    · exact .inr ((hh.threads _ (List.mem_of_getElem? ht) code hhandles).cons rfl)
  | collect hlock hnow =>
    exact (hh.memory code r (lookup_of_lookup_collect hr)).imp_right fun hb => hb.cons rfl

/-- A code that is ahead of the recovery stays there until it is put on the channel. -/
theorem Handled.waiting_next (hh : Handled tr s) (hs : s.Sound allowedRetries)
    (h : Next allowedRetries s e s') (hcrash : e.isCrash = false)
    (hwait : Waiting s code s.recovery) :
    PutBack (⟨s, e, s'⟩ :: tr) code ∨ Waiting s' code s'.recovery := by
  cases h with
  | crash => cases hcrash
  | recover h =>
    rcases h.waiting rfl hs hwait with hwait | ⟨r, rs, hp, hnone, rfl⟩
    · exact .inr hwait
    · exact .inl (putBack_of_put rfl (by simp [put, hp, hnone]))
  | submit => exact .inr (hwait.mono id id id)
  | @run i c t t' s₁ new ht hstep h =>
    by_cases hhandles : t.handles code
    · exact .inl ((hh.threads t (List.mem_of_getElem? ht) code hhandles).cons rfl)
    · refine .inr ?_
      change Waiting _ code s₁.recovery
      rw [h.recovery_eq]
      exact hwait.mono (fun hreq => (h.requestOf hreq).resolve_right hhandles) h.responseOf
        h.isSome_lookup
  | read => exact .inr hwait
  | collect hlock hnow =>
    by_cases hb : PutBack tr code
    · exact .inl (hb.cons rfl)
    · -- a response that may be collected is one of a request that is on the channel
      refine .inr (hwait.mono id id fun hsome => ?_)
      obtain ⟨r, hr⟩ := Option.isSome_iff_exists.1 hsome
      have htime := (hh.memory code r hr).resolve_right hb
      exact Option.isSome_iff_exists.2 ⟨r, lookup_collect hnow hr htime⟩

theorem exists_of_returnsCode (h : returnsCode ⟨s, e, s'⟩ = some code) :
    .answer code ∈ s.threads ∧ e.isCrash = false := by
  cases e with
  | run i c =>
    simp only [returnsCode] at h
    split at h
    next code' ht =>
      cases h
      exact ⟨List.mem_of_getElem? ht, rfl⟩
    next => cases h
  | _ => cases h

/-- A code that is promised after a step was promised before, or its request has just been stored.
-/
theorem Promised.of_next (h : Next allowedRetries s e s')
    (hcode : Promised (⟨s, e, s'⟩ :: tr) s' code) :
    Promised tr s code ∨ (s'.store.requestOf code).isSome = true := by
  rcases hcode with hacc | ⟨u, hu, hstored⟩
  · rcases accepted_cons.1 hacc with hret | hacc
    · exact .inl (.inr ⟨_, (exists_of_returnsCode hret).1, rfl⟩)
    · exact .inl (.inl hacc)
  · cases h with
    | crash => cases hu
    | recover h =>
      rcases h.threads hu with hu | ⟨r, rs, -, -, rfl⟩
      · exact .inl (.inr ⟨u, hu, hstored⟩)
      · cases hstored
    | submit =>
      rcases List.mem_append.1 hu with hu | hu
      · exact .inl (.inr ⟨u, hu, hstored⟩)
      · obtain rfl := List.mem_singleton.1 hu
        cases hstored
    | @run i c t t' s₁ new ht hstep h =>
      have hmoved : (t'.stored code ∨ ∃ u ∈ new, u.stored code) →
          Promised tr s code ∨ (s₁.store.requestOf code).isSome = true := fun hmoved =>
        (h.stored hmoved).imp_left fun hstored => .inr ⟨t, List.mem_of_getElem? ht, hstored⟩
      rcases Threads.mem_of_mem_advance hu with rfl | hsame | hnew
      · exact hmoved (.inl hstored)
      · exact .inl (.inr ⟨u, hsame, hstored⟩)
      · exact hmoved (.inr ⟨u, hnew, hstored⟩)
    | read | collect hlock hnow => exact .inl (.inr ⟨u, hu, hstored⟩)

theorem Next.responseOf (h : Next allowedRetries s e s')
    (hsome : (s.store.responseOf code).isSome = true) :
    (s'.store.responseOf code).isSome = true := by
  cases h with
  | recover h => rwa [h.store_eq]
  | run ht hstep h => exact h.responseOf hsome
  | _ => exact hsome

/-- **A step keeps the codes**, if it deletes requests only when they are answered. -/
theorem Kept.next (hk : Kept tr s) (hs : s.Sound allowedRetries) (h : Next allowedRetries s e s')
    (hdel : DeletesAnswered ⟨s, e, s'⟩) :
    Kept (⟨s, e, s'⟩ :: tr) s' := by
  have hstored : ∀ code, Promised (⟨s, e, s'⟩ :: tr) s' code →
      (s'.store.requestOf code).isSome = true ∨ (s'.store.responseOf code).isSome = true := by
    intro code hcode
    rcases hcode.of_next h with hcode | hreq
    · rcases hk.stored code hcode with hreq | hres
      · cases hreq' : s'.store.requestOf code with
        | some r => exact .inl rfl
        | none =>
          obtain ⟨r, hr⟩ := Option.isSome_iff_exists.1 hreq
          have hissued := (hs.store.request code r hr).1
          exact .inr (h.responseOf (hdel code hissued hreq hreq'))
      · exact .inr (h.responseOf hres)
    · exact .inl hreq
  refine ⟨hk.handled.next hs h, hstored, fun code hacc => ?_⟩
  by_cases hcrash : e.isCrash = true
  · -- only the store is left
    cases h with
    | crash => exact .inr (hstored code (.inl hacc))
    | _ => cases hcrash
  · have hcrash : e.isCrash = false := by simpa using hcrash
    rcases accepted_cons.1 hacc with hret | hacc
    · have hanswer := (exists_of_returnsCode hret).1
      exact .inl ((hk.handled.threads _ hanswer code rfl).cons hcrash)
    · rcases hk.waiting code hacc with hb | hwait
      · exact .inl (hb.cons hcrash)
      · exact hk.handled.waiting_next hs h hcrash hwait

end

/-- **No accepted request is lost**, in every run in which a request is deleted from the store only
when its response is there. -/
theorem notLost {allowedRetries : ℤ} {tr : Trace} {s : Proxy}
    (h : (asyncProxy allowedRetries).Run tr s) (hdel : ∀ st ∈ tr, DeletesAnswered st) :
    NotLost tr s := by
  have hkept : Kept tr s := by
    refine h.invariant (I := Kept) (G := DeletesAnswered) (fun s hs => ?_)
      (fun tr s e s' hrun hk hdel hnext => hk.next (sound_of_run hrun) (next_cases hnext) hdel) hdel
    rw [hs.2]
    refine ⟨⟨List.forall_mem_nil _, nofun⟩, fun code hcode => ?_, fun code hacc => ?_⟩
    · rcases hcode with ⟨st, hst, -⟩ | ⟨t, ht, -⟩
      · cases hst
      · cases ht
    · obtain ⟨st, hst, -⟩ := hacc
      cases hst
  intro hserving code hacc
  rcases hkept.waiting code hacc with hb | hwait
  · exact .inr hb
  · rw [hserving] at hwait
    exact .inl hwait

instance (p : Recovery) : Decidable (p = .serving) :=
  match p with
  | .serving => isTrue rfl
  | .scanResponses | .readResponses _ _ | .startHandler | .scanRequests _ | .readRequests _ _
  | .resend _ => isFalse nofun

instance (tr : Trace) (code : Bytes) : Decidable (Accepted tr code) := List.decidableBEx _ _

instance (tr : Trace) (code : Bytes) : Decidable (PutBack tr code) :=
  decidable_of_iff
    (∃ st ∈ sinceStart tr, (put st).any (fun r => decide (r.code = code)) = true) <| by
    simp [PutBack, Option.any_eq_true]

instance (st : Machine.Step Proxy Event) : Decidable (DeletesAnswered st) :=
  List.decidableBAll _ _

theorem sound_empty (issued : List Bytes) : (∅ : Store).Sound issued where
  request code r h := by
    have hnone : (∅ : Store).requestOf code = none := rfl
    rw [hnone] at h
    cases h
  response code r h := by
    have hnone : (∅ : Store).responseOf code = none := rfl
    rw [hnone] at h
    cases h

theorem init_empty (allowedRetries : ℤ) : (asyncProxy allowedRetries).init {} :=
  ⟨sound_empty _, rfl⟩

/-- `StartProxyServer` from its beginning to its end, where the records of these codes are found. -/
def recoveryWith (responses requests : List Bytes) : List Event :=
  .recover (.keys (responses.map responseKey)) :: List.replicate (responses.length + 2)
    (.recover .none) ++
    .recover (.keys (requests.map requestKey)) :: List.replicate (2 * requests.length + 2)
      (.recover .none)

/-- The handler `i` stores a request with the code, puts it on the channel and returns the code. -/
def submission (i : ℕ) (code : Bytes) : List Event :=
  [.submit {}, .run i (.code code 0), .run i (.store .ok), .run i .none, .run i .none]

/-- The goroutine `i` executes its request, with an outcome of `PersistBufferedResponse`. -/
def execution (i : ℕ) (body : Bytes) (call : Call) : List Event :=
  [.run i .none, .run i (.returned (.answered 200 body) 0), .run i .none, .run i (.store call),
    .run i (.store .ok)]

/-- **Runs compose over a crash**: on what any run leaves in the store a process can be started. -/
theorem init_restart_of_run {allowedRetries allowedRetries' : ℤ} {tr : Trace} {s : Proxy}
    (h : (asyncProxy allowedRetries).Run tr s) : (asyncProxy allowedRetries').init s.restart :=
  ⟨(sound_of_run h).store, rfl⟩

theorem init_restart_of_run_executed : ∃ s : Proxy, (s.store.responseOf [0x61]).isSome = true ∧
    (asyncProxy 2).init s.restart := by
  obtain ⟨tr, s, hrun, hresponse⟩ := Machine.exists_run_of_play (List.flatten [recoveryWith [] [],
    submission 0 [0x61], execution 1 [0x21] .ok]) (P := fun _ s =>
      (s.store.responseOf [0x61]).isSome = true) (init_empty 1) (by decide +kernel)
  exact ⟨s, hresponse, init_restart_of_run hrun⟩

/-- Two requests are accepted and one is executed. After the crash the other one is put back. -/
theorem notLost_of_persisted : ∃ tr s, (asyncProxy 1).Run tr s ∧ s.recovery = .serving ∧
    Accepted tr [0x61] ∧ Accepted tr [0x62] ∧ (s.store.requestOf [0x61]).isNone = true ∧
    NotLost tr s := by
  obtain ⟨tr, s, hrun, hserving, ha, hb, hdeleted, hdel⟩ : ∃ tr s, (asyncProxy 1).Run tr s ∧
      s.recovery = .serving ∧ Accepted tr [0x61] ∧ Accepted tr [0x62] ∧
      (s.store.requestOf [0x61]).isNone = true ∧ ∀ st ∈ tr, DeletesAnswered st :=
    Machine.exists_run_of_play (List.flatten [recoveryWith [] [], submission 0 [0x61],
      submission 2 [0x62], execution 1 [0x21] .ok, [.crash], recoveryWith [[0x61]] [[0x62]]])
      (init_empty 1) (by decide +kernel)
  exact ⟨tr, s, hrun, hserving, ha, hb, hdeleted, notLost hrun hdel⟩

/-- The response is not stored and the request is deleted. After the crash there is nothing left. -/
theorem exists_lost : ∃ tr s, (asyncProxy 1).Run tr s ∧ s.recovery = .serving ∧
    Accepted tr [0x61] ∧ (s.responses.lookup [0x61]).isNone = true ∧ ¬ PutBack tr [0x61] :=
  Machine.exists_run_of_play (List.flatten [recoveryWith [] [], submission 0 [0x61],
    execution 1 [0x21] .failed, [.crash], recoveryWith [] []]) (init_empty 1) (by decide +kernel)

end Dirigent.AsyncProxy
