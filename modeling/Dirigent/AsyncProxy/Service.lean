import Dirigent.AsyncProxy.BufferedRequest
import Dirigent.Threads

/-!
# The asynchronous proxy

A client submits a request and gets a code; the request is executed in the background, and the
client reads the outcome with the code. The proxy keeps the outcomes in memory (`Responses`) and,
beside that, a record of each request until it has an outcome, and of each outcome. When it is
started it loads the outcomes and puts the requests without one on `RequestChannel` again.

Everything runs at the same time: the two servers are started before the recovery, and each request
that is taken from the channel is executed by a goroutine of its own. The process may stop between
any two steps. Then the store is all that is left, and the process is started again.

* `Recovery`, `Point` — where `StartProxyServer`, the handlers and the goroutines are.
* `recover`, `step` — the statements. The channel has no buffer and its receiver only starts a
  goroutine, so to put a request on the channel is to start the goroutine for it. A section under
  `ResponsesLock` is one step, except that the recovery holds the lock for reading while it puts
  requests on the channel.
* `Steps` — what a statement of a handler or a goroutine does.
* `asyncProxy` — the machine, with crashes.

The calls of the store may fail, with or without effect. `uuid.New` never returns a code twice. The
clock shows a time between 1970 and 3871, in seconds.
-/

namespace Dirigent.AsyncProxy

/-! ## Values -/

/-- The bytes of a text. -/
def text (s : String) : Bytes := s.toList.flatMap String.utf8EncodeChar

/-- The zero value of `time.Time`, the first of January of the year 1, as `Unix()` gives it. -/
def zeroTime : ℤ := -62135596800

/-- What `time.Now()` may return. -/
def inClock (t : ℤ) : Bool := decide (0 ≤ t ∧ t ≤ 60000000000)

/-- What comes of an attempt to execute a request. -/
inductive Outcome
  /-- There is no such service. -/
  | noDeployment
  /-- The cold start has been cancelled. -/
  | canceled
  /-- The load balancer has found no sandbox. -/
  | noEndpoint
  /-- `http.DefaultClient.Do` or the reading of the body has failed. -/
  | failed (err : Bytes)
  /-- The function has answered. -/
  | answered (status : ℤ) (body : Bytes)
  deriving DecidableEq

/-- `GetServiceName` -/
def BufferedRequest.serviceName (r : BufferedRequest) : Bytes := r.host

def fireRequest (r : BufferedRequest) : Outcome → BufferedResponse
  | .noDeployment =>
    { statusCode := 400
      body :=
        text "Invocation for non-existing service " ++ r.serviceName ++ text " has been dumped."
      timestamp := zeroTime }
  | .canceled =>
    { statusCode := 504
      body := text "Invocation context canceled for " ++ r.serviceName ++ text "."
      timestamp := zeroTime }
  | .noEndpoint =>
    { statusCode := 410
      body := text "Cold start passed, but no sandbox available for " ++ r.serviceName ++ text "."
      timestamp := zeroTime }
  | .failed err => { statusCode := 500, body := err, timestamp := zeroTime }
  | .answered _ body => { statusCode := 200, body := body, timestamp := zeroTime }

/-- The response that is recorded for a request after an attempt. -/
def BufferedRequest.response (r : BufferedRequest) (o : Outcome) (now : ℤ) : BufferedResponse :=
  { fireRequest r o with timestamp := now, code := r.code }

/-- The response that is recorded when the attempts are used up. -/
def failedManyTimes : BufferedResponse :=
  { statusCode := 500, body := text "Server failed many times", timestamp := zeroTime }

/-- A response as it is written: only the first `WriteHeader` takes effect. -/
structure ResponseWriter where
  status : Option ℤ := none
  body : Bytes := []
  deriving DecidableEq

def ResponseWriter.writeHeader (w : ResponseWriter) (status : ℤ) : ResponseWriter :=
  { w with status := w.status.or (some status) }

def fillResponseWithBufferedResponse (rw : ResponseWriter) (response : BufferedResponse) :
    ResponseWriter :=
  let rw := rw.writeHeader response.statusCode
  { rw with body := rw.body ++ response.body }

abbrev Responses := AList fun _ : Bytes => BufferedResponse

/-- `createAsyncReadHandler` -/
def readHandler (responses : Responses) (code : Bytes) : ResponseWriter :=
  match responses.lookup code with
  | some val => fillResponseWithBufferedResponse (({} : ResponseWriter).writeHeader 200) val
  | none => ({} : ResponseWriter).writeHeader 204

/-! ## The state -/

/-- Where `StartProxyServer` is. -/
inductive Recovery
  /-- `ScanBufferedResponses`: the keys, and then the record of each. -/
  | scanResponses
  | readResponses (keys : List Bytes) (responses : List BufferedResponse)
  /-- `go ps.asyncRequestHandler()` -/
  | startHandler
  /-- `ScanBufferedRequests`, which goes through the pages of a scan; the keys there were when it
  began. -/
  | scanRequests (began : List Bytes)
  | readRequests (keys : List Bytes) (requests : List BufferedRequest)
  /-- The loop under `ResponsesLock.RLock`. -/
  | resend (requests : List BufferedRequest)
  | serving

/-- Something receives from `RequestChannel`. -/
def Recovery.handling : Recovery → Bool
  | .scanResponses | .readResponses _ _ | .startHandler => false
  | _ => true

/-- `ResponsesLock` is held for reading. -/
def Recovery.readLocked : Recovery → Bool
  | .resend _ => true
  | _ => false

/-- Where a handler of a submission or a goroutine is. -/
inductive Point
  /-- `createAsyncInvocationHandler` -/
  | newCode (request : Request)
  | persistRequest (r : BufferedRequest)
  | putRequest (r : BufferedRequest)
  | answer (code : Bytes)
  | accepted (code : Bytes)
  | refused (code : Bytes)
  /-- The goroutine of `asyncRequestHandler`: the test of `NumberTries`, and `fireRequest`. -/
  | attempt (r : BufferedRequest)
  | fire (r : BufferedRequest)
  /-- The attempts are used up. -/
  | exhausted (r : BufferedRequest)
  | gaveUp (r : BufferedRequest)
  /-- The attempt has an outcome. -/
  | record (r : BufferedRequest) (o : Outcome) (now : ℤ)
  | persistResponse (r : BufferedRequest) (response : BufferedResponse)
  | deleteRequest (r : BufferedRequest) (response : BufferedResponse)
  | finished (r : BufferedRequest) (response : BufferedResponse)
  /-- The attempt has failed. -/
  | retry (r : BufferedRequest)
  | passedOn

structure Proxy where
  store : Store := ∅
  /-- The codes that `GetUniqueRequestCode` has returned. -/
  issued : List Bytes := []
  responses : Responses := ∅
  recovery : Recovery := .scanResponses
  threads : List Point := []
  panicked : Bool := false

/-- A call of the store. -/
inductive Call
  | ok
  | failed
  /-- The call has had its effect, but an error is returned. -/
  | unacknowledged
  deriving DecidableEq

def Call.takesEffect : Call → Bool
  | .failed => false
  | _ => true

def Call.succeeds : Call → Bool
  | .ok => true
  | _ => false

/-- What a statement leaves open. -/
inductive Choice
  | none
  | keys (ks : List Bytes)
  | code (c : Bytes) (now : ℤ)
  | store (c : Call)
  | returned (o : Outcome) (now : ℤ)

/-! ## The statements -/

/-- What the pages of a scan for requests may add up to: each key that was there from the first page
to the last, and keys that were there for a time. A key may come up more than once. -/
def Proxy.Scans (s : Proxy) (began ks : List Bytes) : Prop :=
  (∀ k ∈ ks, ∃ code ∈ s.issued, k = requestKey code) ∧
    ∀ k ∈ began, k ∈ s.store.scanKeys bufferedRequestPrefix → k ∈ ks

instance (s : Proxy) (began ks : List Bytes) : Decidable (s.Scans began ks) :=
  inferInstanceAs (Decidable (_ ∧ _))

/-- A statement of `StartProxyServer`. Nothing stores or deletes a response before the responses are
loaded, so the scan for them is one step; a key may come up more than once. -/
def recover (s : Proxy) : Recovery → Choice → Option Proxy
  | .scanResponses, .keys ks =>
    if (∀ k ∈ ks, k ∈ s.store.scanKeys bufferedResponsePrefix) ∧
        ∀ k ∈ s.store.scanKeys bufferedResponsePrefix, k ∈ ks then
      some { s with recovery := .readResponses ks [] }
    else none
  | .readResponses (k :: ks) rs, _ =>
    match s.store.readBufferedResponse k with
    | some r => some { s with recovery := .readResponses ks (rs ++ [r]) }
    | none => some { s with panicked := true }
  | .readResponses [] rs, _ =>
    some { s with
      responses := rs.foldl (fun m r => m.insert r.code r) s.responses
      recovery := .startHandler }
  | .startHandler, _ =>
    some { s with recovery := .scanRequests (s.store.scanKeys bufferedRequestPrefix) }
  | .scanRequests began, .keys ks =>
    if s.Scans began ks then some { s with recovery := .readRequests ks [] } else none
  | .readRequests (k :: ks) rs, _ =>
    match s.store.readBufferedRequest k with
    | some r => some { s with recovery := .readRequests ks (rs ++ [r]) }
    | none => some { s with panicked := true }
  | .readRequests [] rs, _ => some { s with recovery := .resend rs }
  | .resend (r :: rs), _ =>
    if (s.responses.lookup r.code).isSome then some { s with recovery := .resend rs }
    else some { s with recovery := .resend rs, threads := s.threads ++ [.attempt r] }
  | .resend [], _ => some { s with recovery := .serving }
  | _, _ => none

/-- A statement of a handler or a goroutine: the state, where it is then, and the goroutines that it
has started. -/
def step (allowedRetries : ℤ) (s : Proxy) : Point → Choice → Option (Proxy × Point × List Point)
  | .newCode request, .code c now =>
    if Utf8.isValid c = true ∧ c ∉ s.issued then
      some ({ s with issued := c :: s.issued },
        .persistRequest (bufferedRequestFromRequest request c now), [])
    else none
  | .persistRequest r, .store call =>
    some (if call.takesEffect then { s with store := s.store.persistBufferedRequest r } else s,
      if call.succeeds then .putRequest r else .refused r.code, [])
  | .putRequest r, _ => if s.recovery.handling then some (s, .answer r.code, [.attempt r]) else none
  | .answer code, _ => some (s, .accepted code, [])
  | .attempt r, _ => some (s, if allowedRetries ≤ r.numberTries then .exhausted r else .fire r, [])
  | .exhausted r, _ =>
    if s.recovery.readLocked then none
    else some ({ s with responses := s.responses.insert r.code failedManyTimes }, .gaveUp r, [])
  | .fire r, .returned o now =>
    if inClock now then
      if (fireRequest r o).statusCode = 200 ∨ (fireRequest r o).statusCode = 400 then
        some (s, .record r o now, [])
      else some (s, .retry { r with numberTries := r.numberTries + 1 }, [])
    else none
  | .record r o now, _ =>
    if s.recovery.readLocked then none
    else some ({ s with responses := s.responses.insert r.code (r.response o now) },
      .persistResponse r (r.response o now), [])
  | .persistResponse r response, .store call =>
    some (if call.takesEffect then
        { s with store := s.store.persistBufferedResponse response } else s,
      .deleteRequest r response, [])
  | .deleteRequest r response, .store call =>
    some (if call.takesEffect then { s with store := s.store.deleteBufferedRequest r.code } else s,
      .finished r response, [])
  | .retry r, _ => if s.recovery.handling then some (s, .passedOn, [.attempt r]) else none
  | _, _ => none

/-- One round of `startGarbageCollector`. -/
def collect (now : ℤ) (responses : Responses) : Responses :=
  (responses.entries.filter fun e => decide (60000000000 < now - e.2.timestamp)).foldl
    (fun m e => m.erase e.1) responses

inductive Event
  /-- A step of `StartProxyServer`. -/
  | recover (c : Choice)
  | submit (request : Request)
  /-- A step of a handler or a goroutine. -/
  | run (i : ℕ) (c : Choice)
  | read (code : Bytes)
  | collect (now : ℤ)
  /-- The process stops and is started again. -/
  | crash

/-- The process after a start. -/
def Proxy.restart (s : Proxy) : Proxy := { store := s.store, issued := s.issued }

def next (allowedRetries : ℤ) (s : Proxy) : Event → Option Proxy
  | .crash => some s.restart
  | .recover c => if s.panicked then none else recover s s.recovery c
  | .submit request =>
    if s.panicked then none else some { s with threads := s.threads ++ [.newCode request] }
  | .run i c =>
    if s.panicked then none
    else s.threads[i]?.bind fun t => (step allowedRetries s t c).map fun p =>
      { p.1 with threads := Threads.advance s.threads i p.2.1 p.2.2 }
  | .read _ => if s.panicked then none else some s
  | .collect now =>
    if s.panicked || s.recovery.readLocked || !inClock now then none
    else some { s with responses := collect now s.responses }

/-- A store as the proxy leaves it, whatever has happened: the codes have been issued, no request
that is stored has been tried, and each response is of an attempt. -/
structure Store.Sound (store : Store) (issued : List Bytes) : Prop where
  request : ∀ code r, store.requestOf code = some r →
    code ∈ issued ∧ r.code = code ∧ r.numberTries = 0
  response : ∀ code r, store.responseOf code = some r →
    code ∈ issued ∧ r.code = code ∧ inClock r.timestamp = true

/-- The proxy is started on a store that earlier processes have left. -/
def asyncProxy (allowedRetries : ℤ) : Machine Proxy Event where
  init s := s.store.Sound s.issued ∧ s = s.restart
  next := next allowedRetries

/-! ## What a step does -/

/-- What a statement of a handler or a goroutine does. -/
inductive Steps (allowedRetries : ℤ) (s : Proxy) : Point → Proxy → Point → List Point → Prop
  | newCode {request : Request} {c : Bytes} {now : ℤ} (hvalid : Utf8.isValid c = true)
      (hfresh : c ∉ s.issued) :
      Steps allowedRetries s (.newCode request) { s with issued := c :: s.issued }
        (.persistRequest (bufferedRequestFromRequest request c now)) []
  | persistRequest {r : BufferedRequest} (t' : Point)
      (ht' : t' = .putRequest r ∨ t' = .refused r.code) :
      Steps allowedRetries s (.persistRequest r)
        { s with store := s.store.persistBufferedRequest r } t' []
  | persistRequestFails {r : BufferedRequest} :
      Steps allowedRetries s (.persistRequest r) s (.refused r.code) []
  | putRequest {r : BufferedRequest} (hhandling : s.recovery.handling = true) :
      Steps allowedRetries s (.putRequest r) s (.answer r.code) [.attempt r]
  | answer {code : Bytes} : Steps allowedRetries s (.answer code) s (.accepted code) []
  | exhaust {r : BufferedRequest} (htries : allowedRetries ≤ r.numberTries) :
      Steps allowedRetries s (.attempt r) s (.exhausted r) []
  | attempt {r : BufferedRequest} (htries : r.numberTries < allowedRetries) :
      Steps allowedRetries s (.attempt r) s (.fire r) []
  | exhausted {r : BufferedRequest} (hlock : s.recovery.readLocked = false) :
      Steps allowedRetries s (.exhausted r)
        { s with responses := s.responses.insert r.code failedManyTimes } (.gaveUp r) []
  | fire {r : BufferedRequest} {o : Outcome} {now : ℤ} (hnow : inClock now = true)
      (hstatus : (fireRequest r o).statusCode = 200 ∨ (fireRequest r o).statusCode = 400) :
      Steps allowedRetries s (.fire r) s (.record r o now) []
  | fireFails {r : BufferedRequest} {o : Outcome}
      (hstatus : ¬ ((fireRequest r o).statusCode = 200 ∨ (fireRequest r o).statusCode = 400)) :
      Steps allowedRetries s (.fire r) s (.retry { r with numberTries := r.numberTries + 1 }) []
  | record {r : BufferedRequest} {o : Outcome} {now : ℤ} (hlock : s.recovery.readLocked = false) :
      Steps allowedRetries s (.record r o now)
        { s with responses := s.responses.insert r.code (r.response o now) }
        (.persistResponse r (r.response o now)) []
  | persistResponse {r : BufferedRequest} {response : BufferedResponse} :
      Steps allowedRetries s (.persistResponse r response)
        { s with store := s.store.persistBufferedResponse response } (.deleteRequest r response) []
  | persistResponseFails {r : BufferedRequest} {response : BufferedResponse} :
      Steps allowedRetries s (.persistResponse r response) s (.deleteRequest r response) []
  | deleteRequest {r : BufferedRequest} {response : BufferedResponse} :
      Steps allowedRetries s (.deleteRequest r response)
        { s with store := s.store.deleteBufferedRequest r.code } (.finished r response) []
  | deleteRequestFails {r : BufferedRequest} {response : BufferedResponse} :
      Steps allowedRetries s (.deleteRequest r response) s (.finished r response) []
  | retry {r : BufferedRequest} (hhandling : s.recovery.handling = true) :
      Steps allowedRetries s (.retry r) s .passedOn [.attempt r]

variable {allowedRetries now : ℤ} {s s' : Proxy} {c : Choice} {m : Responses} {code : Bytes}
  {r : BufferedResponse}

theorem steps_of_step {t t' : Point} {new : List Point}
    (h : step allowedRetries s t c = some (s', t', new)) :
    Steps allowedRetries s t s' t' new := by
  unfold step at h
  split at h
  case h_1 request c now =>
    split at h
    next hcode =>
      cases h
      exact .newCode hcode.1 hcode.2
    next => cases h
  case h_2 r call =>
    cases h
    cases call with
    | ok => exact .persistRequest _ (.inl rfl)
    | failed => exact .persistRequestFails
    | unacknowledged => exact .persistRequest _ (.inr rfl)
  case h_3 r =>
    split at h
    next hhandling =>
      cases h
      exact .putRequest hhandling
    next => cases h
  case h_4 code =>
    cases h
    exact .answer
  case h_5 r =>
    cases h
    by_cases htries : allowedRetries ≤ r.numberTries
    · rw [if_pos htries]
      exact .exhaust htries
    · rw [if_neg htries]
      exact .attempt (not_le.1 htries)
  case h_6 r =>
    split at h
    next => cases h
    next hlock =>
      cases h
      exact .exhausted (by simpa using hlock)
  case h_7 r o now =>
    split at h
    next hnow =>
      split at h
      next hstatus =>
        cases h
        exact .fire hnow hstatus
      next hstatus =>
        cases h
        exact .fireFails hstatus
    next => cases h
  case h_8 r o now =>
    split at h
    next => cases h
    next hlock =>
      cases h
      exact .record (by simpa using hlock)
  case h_9 r response call =>
    cases h
    cases call with
    | failed => exact .persistResponseFails
    | _ => exact .persistResponse
  case h_10 r response call =>
    cases h
    cases call with
    | failed => exact .deleteRequestFails
    | _ => exact .deleteRequest
  case h_11 r =>
    split at h
    next hhandling =>
      cases h
      exact .retry hhandling
    next => cases h
  case h_12 => cases h

/-- What a statement of `StartProxyServer` does. -/
inductive Recovers (s : Proxy) : Recovery → Proxy → Prop
  | scanResponses {ks : List Bytes}
      (hscan : ∀ k, k ∈ ks ↔ k ∈ s.store.scanKeys bufferedResponsePrefix) :
      Recovers s .scanResponses { s with recovery := .readResponses ks [] }
  | readResponse {k : Bytes} {ks : List Bytes} {rs : List BufferedResponse} {r : BufferedResponse}
      (hread : s.store.readBufferedResponse k = some r) :
      Recovers s (.readResponses (k :: ks) rs) { s with recovery := .readResponses ks (rs ++ [r]) }
  | readResponseFails {k : Bytes} {ks : List Bytes} {rs : List BufferedResponse} :
      Recovers s (.readResponses (k :: ks) rs) { s with panicked := true }
  | loadResponses {rs : List BufferedResponse} :
      Recovers s (.readResponses [] rs)
        { s with
          responses := rs.foldl (fun m r => m.insert r.code r) s.responses
          recovery := .startHandler }
  | startHandler :
      Recovers s .startHandler
        { s with recovery := .scanRequests (s.store.scanKeys bufferedRequestPrefix) }
  | scanRequests {began ks : List Bytes} (hscan : s.Scans began ks) :
      Recovers s (.scanRequests began) { s with recovery := .readRequests ks [] }
  | readRequest {k : Bytes} {ks : List Bytes} {rs : List BufferedRequest} {r : BufferedRequest}
      (hread : s.store.readBufferedRequest k = some r) :
      Recovers s (.readRequests (k :: ks) rs) { s with recovery := .readRequests ks (rs ++ [r]) }
  | readRequestFails {k : Bytes} {ks : List Bytes} {rs : List BufferedRequest} :
      Recovers s (.readRequests (k :: ks) rs) { s with panicked := true }
  | rlock {rs : List BufferedRequest} :
      Recovers s (.readRequests [] rs) { s with recovery := .resend rs }
  | skip {r : BufferedRequest} {rs : List BufferedRequest}
      (hsome : (s.responses.lookup r.code).isSome = true) :
      Recovers s (.resend (r :: rs)) { s with recovery := .resend rs }
  | resend {r : BufferedRequest} {rs : List BufferedRequest}
      (hnone : s.responses.lookup r.code = none) :
      Recovers s (.resend (r :: rs))
        { s with recovery := .resend rs, threads := s.threads ++ [.attempt r] }
  | runlock : Recovers s (.resend []) { s with recovery := .serving }

theorem recovers_of_recover {p : Recovery} (h : recover s p c = some s') :
    Recovers s p s' := by
  unfold recover at h
  split at h
  case h_1 ks =>
    split at h
    next hscan =>
      cases h
      exact .scanResponses fun k => ⟨hscan.1 k, hscan.2 k⟩
    next => cases h
  case h_2 k ks rs =>
    split at h
    next r hread =>
      cases h
      exact .readResponse hread
    next =>
      cases h
      exact .readResponseFails
  case h_3 rs =>
    cases h
    exact .loadResponses
  case h_4 =>
    cases h
    exact .startHandler
  case h_5 began ks =>
    split at h
    next hscan =>
      cases h
      exact .scanRequests hscan
    next => cases h
  case h_6 k ks rs =>
    split at h
    next r hread =>
      cases h
      exact .readRequest hread
    next =>
      cases h
      exact .readRequestFails
  case h_7 rs =>
    cases h
    exact .rlock
  case h_8 r rs =>
    split at h
    next hsome =>
      cases h
      exact .skip hsome
    next hnone =>
      cases h
      exact .resend (by simpa using hnone)
  case h_9 =>
    cases h
    exact .runlock
  case h_10 => cases h

/-- What an event does. -/
inductive Next (allowedRetries : ℤ) (s : Proxy) : Event → Proxy → Prop
  | crash : Next allowedRetries s .crash s.restart
  | recover {c : Choice} {s' : Proxy} (h : Recovers s s.recovery s') :
      Next allowedRetries s (.recover c) s'
  | submit {request : Request} :
      Next allowedRetries s (.submit request) { s with threads := s.threads ++ [.newCode request] }
  | run {i : ℕ} {c : Choice} {t t' : Point} {s' : Proxy} {new : List Point}
      (ht : s.threads[i]? = some t) (hstep : step allowedRetries s t c = some (s', t', new))
      (h : Steps allowedRetries s t s' t' new) :
      Next allowedRetries s (.run i c) { s' with threads := Threads.advance s.threads i t' new }
  | read {code : Bytes} : Next allowedRetries s (.read code) s
  | collect {now : ℤ} (hlock : s.recovery.readLocked = false) (hnow : inClock now = true) :
      Next allowedRetries s (.collect now) { s with responses := collect now s.responses }

theorem next_cases {e : Event} (h : (asyncProxy allowedRetries).next s e = some s') :
    Next allowedRetries s e s' := by
  change next allowedRetries s e = some s' at h
  cases e with
  | crash =>
    cases h
    exact .crash
  | recover c =>
    simp only [next] at h
    split at h
    next => cases h
    next => exact .recover (recovers_of_recover h)
  | submit request =>
    simp only [next] at h
    split at h
    next => cases h
    next =>
      cases h
      exact .submit
  | run i c =>
    simp only [next] at h
    split at h
    next => cases h
    next =>
      obtain ⟨t, ht, h⟩ := Option.bind_eq_some_iff.1 h
      obtain ⟨⟨s₁, t', new⟩, hstep, rfl⟩ := Option.map_eq_some_iff.1 h
      exact .run ht hstep (steps_of_step hstep)
  | read code =>
    simp only [next] at h
    split at h
    next => cases h
    next =>
      cases h
      exact .read
  | collect now =>
    simp only [next] at h
    split at h
    next => cases h
    next hcond =>
      cases h
      simp only [Bool.or_eq_true, Bool.not_eq_true', not_or, Bool.not_eq_true, Bool.not_eq_false]
        at hcond
      exact .collect hcond.1.2 hcond.2

/-! ### The garbage collector -/

theorem lookup_foldl_erase {l : List (Sigma fun _ : Bytes => BufferedResponse)} :
    (l.foldl (fun m e => m.erase e.1) m).lookup code =
      if code ∈ l.map Sigma.fst then none else m.lookup code := by
  induction l generalizing m with
  | nil => simp
  | cons e l ih =>
    rw [List.foldl_cons, ih]
    by_cases hl : code ∈ l.map Sigma.fst
    · simp [hl]
    · by_cases he : code = e.1
      · subst he
        rw [if_neg hl, AList.lookup_erase, List.map_cons, if_pos List.mem_cons_self]
      · simp [hl, he, AList.lookup_erase_ne he]

theorem lookup_of_lookup_collect (h : (collect now m).lookup code = some r) :
    m.lookup code = some r := by
  rw [collect, lookup_foldl_erase] at h
  split at h
  next => cases h
  next => exact h

theorem lookup_collect (hnow : inClock now = true) (h : m.lookup code = some r)
    (hr : inClock r.timestamp = true) :
    (collect now m).lookup code = some r := by
  simp only [inClock, decide_eq_true_eq] at hnow hr
  rw [collect, lookup_foldl_erase, if_neg, h]
  intro hmem
  obtain ⟨⟨code', r'⟩, hfilter, rfl⟩ := List.mem_map.1 hmem
  obtain ⟨hentry, hold⟩ := List.mem_filter.1 hfilter
  have hr' : m.lookup code' = some r' := AList.mem_lookup_iff.2 hentry
  obtain rfl := Option.some.inj (h.symm.trans hr')
  simp only [decide_eq_true_eq] at hold
  omega

/-! ## The requests that are around -/

/-- The code of a request was issued, and it is text. -/
structure BufferedRequest.Sound (r : BufferedRequest) (issued : List Bytes) : Prop where
  issued : r.code ∈ issued
  valid : Utf8.isValid r.code = true
  tries : 0 ≤ r.numberTries

/-- What is known of the request that a handler or a goroutine has. -/
def Point.Sound (allowedRetries : ℤ) (issued : List Bytes) : Point → Prop
  | .newCode _ | .passedOn => True
  | .persistRequest r | .putRequest r => r.Sound issued ∧ r.numberTries = 0
  | .answer code | .accepted code | .refused code => code ∈ issued
  | .attempt r | .retry r | .exhausted r | .gaveUp r =>
    r.Sound issued ∧ r.numberTries ≤ max 0 allowedRetries
  | .fire r => r.Sound issued ∧ r.numberTries < allowedRetries
  | .record r _ now => r.Sound issued ∧ r.numberTries < allowedRetries ∧ inClock now = true
  | .persistResponse r response | .deleteRequest r response | .finished r response =>
    r.Sound issued ∧ r.numberTries < allowedRetries ∧ response.code = r.code ∧
      inClock response.timestamp = true

/-- What is known of the records that the recovery has read. -/
def Recovery.Sound (issued : List Bytes) : Recovery → Prop
  | .readResponses ks rs => (∀ k ∈ ks, ∃ code, k = responseKey code) ∧
      ∀ r ∈ rs, r.code ∈ issued ∧ inClock r.timestamp = true
  | .readRequests ks rs => (∀ k ∈ ks, ∃ code ∈ issued, k = requestKey code) ∧
      ∀ r ∈ rs, r.Sound issued ∧ r.numberTries = 0
  | .resend rs => ∀ r ∈ rs, r.Sound issued ∧ r.numberTries = 0
  | _ => True

structure Proxy.Sound (allowedRetries : ℤ) (s : Proxy) : Prop where
  store : s.store.Sound s.issued
  threads : ∀ t ∈ s.threads, t.Sound allowedRetries s.issued
  recovery : s.recovery.Sound s.issued

section

variable {allowedRetries : ℤ} {s s' : Proxy} {t t' : Point} {new : List Point}

variable {r : BufferedRequest} {issued issued' : List Bytes} {p : Recovery} {store : Store}

theorem BufferedRequest.Sound.mono (h : r.Sound issued) (hsub : issued ⊆ issued') :
    r.Sound issued' :=
  ⟨hsub h.issued, h.valid, h.tries⟩

theorem Point.Sound.mono (h : t.Sound allowedRetries issued) (hsub : issued ⊆ issued') :
    t.Sound allowedRetries issued' := by
  cases t with
  | newCode request | passedOn => trivial
  | answer code | accepted code | refused code => exact hsub h
  | _ => exact ⟨h.1.mono hsub, h.2⟩

theorem Recovery.Sound.mono (h : p.Sound issued) (hsub : issued ⊆ issued') : p.Sound issued' := by
  cases p with
  | readResponses ks rs => exact ⟨h.1, fun r hr => ⟨hsub (h.2 r hr).1, (h.2 r hr).2⟩⟩
  | readRequests ks rs =>
    refine ⟨fun k hk => ?_, fun r hr => ⟨(h.2 r hr).1.mono hsub, (h.2 r hr).2⟩⟩
    obtain ⟨code, hcode, rfl⟩ := h.1 k hk
    exact ⟨code, hsub hcode, rfl⟩
  | resend rs => exact fun r hr => ⟨(h r hr).1.mono hsub, (h r hr).2⟩
  | _ => trivial

theorem Store.Sound.mono (h : store.Sound issued) (hsub : issued ⊆ issued') :
    store.Sound issued' where
  request code r hr := ⟨hsub (h.request code r hr).1, (h.request code r hr).2⟩
  response code r hr := ⟨hsub (h.response code r hr).1, (h.response code r hr).2⟩

theorem Steps.issued_subset (h : Steps allowedRetries s t s' t' new) : s.issued ⊆ s'.issued := by
  cases h with
  | newCode hvalid hfresh => exact List.subset_cons_self _ _
  | _ => exact List.Subset.refl _

theorem Steps.recovery_eq (h : Steps allowedRetries s t s' t' new) : s'.recovery = s.recovery := by
  cases h <;> rfl

/-- A statement of a goroutine keeps the store sound. -/
theorem Steps.store_sound (h : Steps allowedRetries s t s' t' new) (hs : s.store.Sound s.issued)
    (ht : t.Sound allowedRetries s.issued) : s'.store.Sound s'.issued := by
  cases h with
  | newCode hvalid hfresh => exact hs.mono (List.subset_cons_self _ _)
  | @persistRequest r t' ht' =>
    have hcode : Utf8.toValid r.code = r.code := Utf8.toValid_eq_self_iff.2 ht.1.valid
    refine ⟨fun code r' hr' => ?_, fun code r' hr' => ?_⟩
    · simp only [Store.requestOf_persistBufferedRequest] at hr'
      split at hr'
      next heq =>
        cases hr'
        subst heq
        exact ⟨ht.1.issued, hcode, ht.2⟩
      next => exact hs.request code r' hr'
    · simp only [Store.responseOf_persistBufferedRequest] at hr'
      exact hs.response code r' hr'
  | @persistResponse r response =>
    obtain ⟨hr, -, hcode, htime⟩ := ht
    have hvalid : Utf8.toValid response.code = response.code := by
      rw [hcode]
      exact Utf8.toValid_eq_self_iff.2 hr.valid
    refine ⟨fun code r' hr' => ?_, fun code r' hr' => ?_⟩
    · simp only [Store.requestOf_persistBufferedResponse] at hr'
      exact hs.request code r' hr'
    · simp only [Store.responseOf_persistBufferedResponse] at hr'
      split at hr'
      next heq =>
        cases hr'
        subst heq
        exact ⟨hcode ▸ hr.issued, hvalid, htime⟩
      next => exact hs.response code r' hr'
  | @deleteRequest r response =>
    refine ⟨fun code r' hr' => ?_, fun code r' hr' => ?_⟩
    · simp only [Store.requestOf_deleteBufferedRequest] at hr'
      split at hr'
      next => cases hr'
      next => exact hs.request code r' hr'
    · simp only [Store.responseOf_deleteBufferedRequest] at hr'
      exact hs.response code r' hr'
  | _ => exact hs

theorem Steps.point_sound (h : Steps allowedRetries s t s' t' new)
    (ht : t.Sound allowedRetries s.issued) :
    t'.Sound allowedRetries s'.issued ∧ ∀ u ∈ new, u.Sound allowedRetries s'.issued := by
  have hnil : ∀ u ∈ ([] : List Point), u.Sound allowedRetries s'.issued := fun u hu => by cases hu
  cases h with
  | newCode hvalid hfresh => exact ⟨⟨⟨List.mem_cons_self, hvalid, le_refl 0⟩, rfl⟩, hnil⟩
  | persistRequest t' ht' =>
    rcases ht' with rfl | rfl
    · exact ⟨ht, hnil⟩
    · exact ⟨ht.1.issued, hnil⟩
  | persistRequestFails => exact ⟨ht.1.issued, hnil⟩
  | @putRequest r hhandling =>
    refine ⟨ht.1.issued, fun u hu => ?_⟩
    obtain rfl := List.mem_singleton.1 hu
    exact ⟨ht.1, by rw [ht.2]; exact le_max_left _ _⟩
  | answer | exhaust htries | exhausted hlock | persistResponse | persistResponseFails
  | deleteRequest | deleteRequestFails => exact ⟨ht, hnil⟩
  | attempt htries => exact ⟨⟨ht.1, htries⟩, hnil⟩
  | fire hnow hstatus => exact ⟨⟨ht.1, ht.2, hnow⟩, hnil⟩
  | @fireFails r o hstatus =>
    obtain ⟨⟨hissued, hvalid, htries⟩, hlt⟩ := ht
    refine ⟨⟨⟨hissued, hvalid, ?_⟩, ?_⟩, hnil⟩
    · show 0 ≤ r.numberTries + 1
      omega
    · exact (Int.add_one_le_of_lt hlt).trans (le_max_right _ _)
  | record hlock => exact ⟨⟨ht.1, ht.2.1, rfl, ht.2.2⟩, hnil⟩
  | retry hhandling =>
    refine ⟨trivial, fun u hu => ?_⟩
    obtain rfl := List.mem_singleton.1 hu
    exact ht

theorem Store.Sound.request_sound (h : store.Sound issued) {code : Bytes}
    (hr : store.requestOf code = some r) :
    r.Sound issued ∧ r.numberTries = 0 := by
  obtain ⟨hissued, hcode, htries⟩ := h.request code r hr
  obtain ⟨code', r', heq, hread, hvalid⟩ := Store.exists_read_of_mem_scanKeys
    (Store.mem_scanKeys_request.2 ⟨code, rfl, by rw [hr]; rfl⟩)
  obtain rfl := requestKey_inj.1 heq
  obtain rfl := Option.some.inj (hr.symm.trans hread)
  refine ⟨⟨hcode.symm ▸ hissued, ?_, htries.ge⟩, htries⟩
  rw [hvalid]
  exact Utf8.isValid_toValid code

theorem Recovers.sound (h : Recovers s p s') (hp : s.recovery = p) (hs : s.Sound allowedRetries) :
    s'.Sound allowedRetries := by
  have hrec := hs.recovery
  rw [hp] at hrec
  cases h with
  | scanResponses hscan =>
    refine ⟨hs.store, hs.threads, fun k hk => ?_, fun r hr => by cases hr⟩
    obtain ⟨code, rfl, -⟩ := Store.mem_scanKeys_response.1 ((hscan k).1 hk)
    exact ⟨code, rfl⟩
  | @readResponse k ks rs r hread =>
    refine ⟨hs.store, hs.threads, fun k hk => hrec.1 k (List.mem_cons_of_mem _ hk),
      Threads.forall_mem_concat hrec.2 ?_⟩
    obtain ⟨code, rfl⟩ := hrec.1 k List.mem_cons_self
    obtain ⟨hissued, hcode, htime⟩ := hs.store.response code r hread
    exact ⟨hcode.symm ▸ hissued, htime⟩
  | readResponseFails | readRequestFails => exact ⟨hs.store, hs.threads, hs.recovery⟩
  | loadResponses | startHandler | runlock => exact ⟨hs.store, hs.threads, trivial⟩
  | scanRequests hscan => exact ⟨hs.store, hs.threads, hscan.1, fun r hr => by cases hr⟩
  | @readRequest k ks rs r hread =>
    refine ⟨hs.store, hs.threads, fun k hk => hrec.1 k (List.mem_cons_of_mem _ hk),
      Threads.forall_mem_concat hrec.2 ?_⟩
    obtain ⟨code, -, rfl⟩ := hrec.1 k List.mem_cons_self
    exact hs.store.request_sound hread
  | rlock => exact ⟨hs.store, hs.threads, hrec.2⟩
  | skip hsome => exact ⟨hs.store, hs.threads, fun r hr => hrec r (List.mem_cons_of_mem _ hr)⟩
  | @resend r rs hnone =>
    refine ⟨hs.store, Threads.forall_mem_concat hs.threads ?_,
      fun r hr => hrec r (List.mem_cons_of_mem _ hr)⟩
    obtain ⟨hr, htries⟩ := hrec r List.mem_cons_self
    exact ⟨hr, by rw [htries]; exact le_max_left _ _⟩

theorem Next.sound {e : Event} (h : Next allowedRetries s e s') (hs : s.Sound allowedRetries) :
    s'.Sound allowedRetries := by
  cases h with
  | crash => exact ⟨hs.store, List.forall_mem_nil _, trivial⟩
  | recover h => exact h.sound rfl hs
  | submit => exact ⟨hs.store, Threads.forall_mem_concat hs.threads trivial, hs.recovery⟩
  | @run i c t t' s₁ new ht hstep h =>
    have hsound := hs.threads t (List.mem_of_getElem? ht)
    have hissued := h.issued_subset
    obtain ⟨ht', hnew⟩ := h.point_sound hsound
    refine ⟨h.store_sound hs.store hsound, fun u hu => ?_, ?_⟩
    · rcases Threads.mem_of_mem_advance hu with rfl | hsame | hu
      · exact ht'
      · exact (hs.threads u hsame).mono hissued
      · exact hnew u hu
    · change s₁.recovery.Sound s₁.issued
      rw [h.recovery_eq]
      exact hs.recovery.mono hissued
  | read => exact hs
  | collect hlock hnow => exact ⟨hs.store, hs.threads, hs.recovery⟩

/-- In every run the requests that are around are sound. -/
theorem sound_of_run {tr : List (Machine.Step Proxy Event)}
    (h : (asyncProxy allowedRetries).Run tr s) : s.Sound allowedRetries := by
  refine h.invariant_state (I := fun s => s.Sound allowedRetries) (fun s hs => ?_)
    fun s e s' hI hnext => ?_
  · obtain ⟨hstore, hrestart⟩ := hs
    rw [hrestart]
    exact ⟨hstore, List.forall_mem_nil _, trivial⟩
  · exact (next_cases hnext).sound hI

end

end Dirigent.AsyncProxy
