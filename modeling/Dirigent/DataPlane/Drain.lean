import Dirigent.DataPlane.Requests

/-!
# Draining endpoints

`DrainEndpoints` returns when the endpoints of its patch are out of use; the control plane then
deletes their sandboxes. It marks an endpoint, loads its counter `InFlight`, takes the endpoint
from the list, and waits for a signal: its own if the counter was zero, otherwise that of the last
request to leave.

The counter misses two kinds of requests when it is loaded: those that have picked the endpoint
and have not counted themselves yet, and, where it is not zero, one that has counted itself out
before somebody else came in, and will signal too early. And the list is cleared by URL while the
endpoints are marked by ID.

**Theorem (`drain_safe`).** In a run where no drain loads a counter that misses requests and every
drain takes its endpoints from the list, no request is assigned an endpoint of a drain that has
returned. `removesDrained_iff` says when a drain does the latter.
-/

namespace Dirigent.DataPlane

open Threads

namespace Thread

/-- A drain from its lock to the removal from the list. -/
def isMarking : Thread → Bool
  | .drainEndpoints _ pc =>
    match pc with
    | .mark _ | .makeCallback _ _ | .loadInFlight _ _ | .signal _ _ | .remove _ => true
    | _ => false
  | _ => false

/-- The channels that a drain waits for. -/
def barriers : Thread → List ℕ
  | .drainEndpoints _ pc => pc.record.barriers
  | _ => []

/-- The endpoints that the call is about. -/
def patch : Thread → List EndpointInfo
  | .drainEndpoints es _ => es
  | _ => []

end Thread

/-- A drain loads the counter of `e` while it misses requests: one that is about to come, or one
whose signal is early. -/
def Miscounted (s : Pool FunctionMetadata Thread) (e : ℕ) : Prop :=
  (∃ t ∈ s.threads, t.selected e = true) ∨
    ((s.shared.heap e).inFlight ≠ 0 ∧
      ((s.shared.heap e).drainingCallback = some 1 ∨ ∃ t ∈ s.threads, t.isLast e = true))

/-- The next step of a drain goes wrong: it loads a counter that misses requests, or it leaves an
endpoint of its patch in the list. -/
def DrainsUnsafely (s : Pool FunctionMetadata Thread) : Thread → Prop
  | .drainEndpoints _ (.loadInFlight e _) => Miscounted s e
  | .drainEndpoints es (.remove _) =>
    ∃ e ∈ FunctionMetadata.removeByURL s.shared.heap es s.shared.upstreamEndpoints,
      isDrained es (s.shared.heap e) = true
  | _ => False

def UnsafeDrain (st : Machine.Step (Pool FunctionMetadata Thread) (Threads.Event Thread Choice)) :
    Prop :=
  match st.event with
  | .run i _ => ∃ t ∈ st.src.threads[i]?, DrainsUnsafely st.src t
  | .start _ => False

variable {m m' : FunctionMetadata} {i e : ℕ} {t t' : Thread}

/-! ## What a step does to the marks and signals -/

theorem Effect.drained_eq_true (h : Effect m i t m' t') (he : e < m.allocated)
    (hd : (m'.heap e).drained = true) : (m.heap e).drained = true ∨
      ∃ es d todo, t = .drainEndpoints es (.mark d) ∧ d.todo = e :: todo ∧
        isDrained es (m.heap e) = true ∧
        t' = .drainEndpoints es (.makeCallback e { d with todo := todo }) := by
  cases h with
  | append => exact .inl (by rwa [addToEndpointList_heap _ _ he] at hd)
  | @mark es d e' todo htodo hid hfalse =>
    rcases eq_or_ne e e' with rfl | hne
    · exact .inr ⟨es, d, todo, rfl, htodo, hid, rfl⟩
    · exact .inl (by rwa [modify_heap_ne _ _ hne] at hd)
  | @markAgain es d e' todo htodo hid htrue =>
    rcases eq_or_ne e e' with rfl | hne
    · exact .inl htrue
    · exact .inl (by rwa [modify_heap_ne _ _ hne] at hd)
  | makeCallback | signal | pass | takeToken | addInFlight | giveBack | sendCallback |
    returnToken =>
    refine .inl (Eq.trans ?_ hd)
    exact Eq.symm (modify_field UpstreamEndpoint.drained fun _ => rfl)
  | _ => exact .inl hd

/-- A signal comes from the drain itself or from the last request. -/
theorem Effect.signalled (h : Effect m i t m' t') (he : e < m.allocated)
    (hs : (m'.heap e).drainingCallback = some 1) : (m.heap e).drainingCallback = some 1 ∨
      (∃ es d, t = .drainEndpoints es (.signal e d)) ∨ t = .invocation (.sendCallback e) := by
  cases h with
  | append => exact .inl (by rwa [addToEndpointList_heap _ _ he] at hs)
  | @makeCallback es e' d | @pass es d e' k =>
    rcases eq_or_ne e e' with rfl | hne
    · simp [modify_heap_self] at hs
    · exact .inl (by rwa [modify_heap_ne _ _ hne] at hs)
  | @signal es e' d =>
    rcases eq_or_ne e e' with rfl | hne
    · exact .inr (.inl ⟨es, d, rfl⟩)
    · exact .inl (by rwa [modify_heap_ne _ _ hne] at hs)
  | @sendCallback e' =>
    rcases eq_or_ne e e' with rfl | hne
    · exact .inr (.inr rfl)
    · exact .inl (by rwa [modify_heap_ne _ _ hne] at hs)
  | mark | markAgain | takeToken | addInFlight | giveBack | returnToken =>
    refine .inl (Eq.trans ?_ hs)
    exact Eq.symm (modify_field UpstreamEndpoint.drainingCallback fun _ => rfl)
  | _ => exact .inl hs

theorem Effect.isLast (h : Effect m i t m' t') (hl : t'.isLast e = true) :
    t.isLast e = true ∨ (t.uses e = true ∧ (m.heap e).inFlight = 1) := by
  cases h with
  | giveBack =>
    obtain ⟨rfl, hzero⟩ := of_decide_eq_true hl
    exact .inr ⟨decide_eq_true rfl, by omega⟩
  | seeLastOfDrained =>
    obtain rfl := of_decide_eq_true hl
    exact .inl (decide_eq_true ⟨rfl, rfl⟩)
  | seeNotLast | noCallback | sendCallback => simp [Thread.isLast] at hl
  | _ => exact .inl hl

theorem Effect.isMarking (h : Effect m i t m' t') (hm : t.isMarking = true) :
    (t'.isMarking = true ∧ t'.patch = t.patch ∧ ∀ e, e ∈ t'.todo → e ∈ t.todo) ∨
      ∃ es d, t = .drainEndpoints es (.remove d) ∧ m' = { m with
        upstreamEndpoints := FunctionMetadata.removeByURL m.heap es m.upstreamEndpoints } := by
  cases h with
  | remove => exact .inr ⟨_, _, rfl, rfl⟩
  | mark hd | markAgain hd | passOver hd =>
    refine .inl ⟨rfl, rfl, fun e he => ?_⟩
    rw [todo_mark, hd]
    exact List.mem_cons_of_mem _ he
  | marked | makeCallback | seeUnused | seeUsed | signal => exact .inl ⟨rfl, rfl, fun _ he => he⟩
  | _ => cases hm

theorem mode_of_isMarking (h : t.isMarking = true) : t.mode = .writing := by
  cases t with
  | drainEndpoints es pc =>
    cases pc with
    | lock | wait d | returned d => cases h
    | _ => rfl
  | _ => cases h

/-- The list changes in a write section only, and not while a drain marks. -/
theorem Effect.upstreamEndpoints_eq (h : Effect m i t m' t') :
    m'.upstreamEndpoints = m.upstreamEndpoints ∨ (t.mode = .writing ∧ t'.isMarking = false) := by
  cases h with
  | append | removeAll | remove => exact .inr ⟨rfl, rfl⟩
  | _ => exact .inl rfl

/-- A drain gives up a channel only for a signal. -/
theorem Effect.barriers (h : Effect m i t m' t') (he : e ∈ t.barriers) :
    e ∈ t'.barriers ∨ (m.heap e).drainingCallback = some 1 := by
  cases h with
  | drainLock => cases he
  | makeCallback => exact .inl (List.mem_append_left _ he)
  | @pass es d e' k hk hs =>
    by_cases hee : e = e'
    · exact .inr (hee ▸ hs)
    · refine .inl (List.mem_eraseIdx_iff_getElem?.2 ?_)
      obtain ⟨j, hj⟩ := List.mem_iff_getElem?.1 he
      refine ⟨j, ?_, hj⟩
      rintro rfl
      exact hee (Option.some.inj (hj.symm.trans hk))
  | _ => exact .inl he

/-! ## A drain at work -/

variable {es : List EndpointInfo} {d : Draining} {ts : List Thread} {tr : List (Machine.Step _ _)}
  {s : Pool FunctionMetadata Thread}

theorem isDrained_congr {ep ep' : UpstreamEndpoint} (h : ep'.id = ep.id) :
    isDrained es ep' = isDrained es ep := by
  rw [isDrained, isDrained, h]

/-- What a drain that is marking knows about its endpoints. -/
structure Marking (s : Pool FunctionMetadata Thread) : Prop where
  todo : ∀ t ∈ s.threads, t.isMarking = true → t.todo.Sublist s.shared.upstreamEndpoints
  patch : ∀ t ∈ s.threads, ∀ e, e ∈ t.current ∨ e ∈ t.covered →
    isDrained t.patch (s.shared.heap e) = true
  complete : ∀ t ∈ s.threads, t.isMarking = true → ∀ e ∈ s.shared.upstreamEndpoints,
    isDrained t.patch (s.shared.heap e) = true → e ∈ t.todo ∨ e ∈ t.current ∨ e ∈ t.covered
  barrier : ∀ es e d, .drainEndpoints es (.loadInFlight e d) ∈ s.threads → e ∈ d.barriers
  swept : ∀ es d, .drainEndpoints es (.remove d) ∈ s.threads → d.todo = []
  returned : ∀ es d, .drainEndpoints es (.returned d) ∈ s.threads → d.barriers = []

/-! The parts for the thread that moves. -/

theorem Effect.marking_todo (h : Effect m i t m' t') (hm : t'.isMarking = true)
    (ht : t.isMarking = true → t.todo.Sublist m.upstreamEndpoints) :
    t'.todo.Sublist m.upstreamEndpoints := by
  cases h with
  | drainLock => exact List.Sublist.refl _
  | mark hd | markAgain hd | passOver hd =>
    have hsub := ht rfl
    rw [todo_mark, hd] at hsub
    exact (List.sublist_cons_self _ _).trans hsub
  | marked | makeCallback | seeUnused | seeUsed | signal => exact ht rfl
  | _ => cases hm

theorem Effect.marking_patch (h : Effect m i t m' t')
    (ht : ∀ e, e ∈ t.current ∨ e ∈ t.covered → isDrained t.patch (m.heap e) = true)
    (he : e ∈ t'.current ∨ e ∈ t'.covered) : isDrained t'.patch (m.heap e) = true := by
  cases h with
  | drainLock => rcases he with he | he <;> cases he
  | mark _ hid =>
    rcases he with he | he
    · obtain rfl := List.mem_singleton.1 he
      exact hid
    · exact ht e (.inr he)
  | markAgain _ hid =>
    rcases he with he | he
    · cases he
    · rcases List.mem_cons.1 he with rfl | he
      · exact hid
      · exact ht e (.inr he)
  | seeUnused | seeUsed =>
    rcases he with he | he
    · cases he
    · rcases List.mem_cons.1 he with rfl | he
      · exact ht e (.inl List.mem_cons_self)
      · exact ht e (.inr he)
  | _ => exact ht e he

theorem Effect.marking_complete (h : Effect m i t m' t') (hm : t'.isMarking = true)
    (ht : t.isMarking = true → e ∈ t.todo ∨ e ∈ t.current ∨ e ∈ t.covered)
    (he : e ∈ m.upstreamEndpoints) (hid : isDrained t'.patch (m.heap e) = true) :
    e ∈ t'.todo ∨ e ∈ t'.current ∨ e ∈ t'.covered := by
  cases h with
  | drainLock => exact .inl he
  | mark hd | markAgain hd =>
    have hmem := ht rfl
    rw [todo_mark, hd] at hmem
    simpa [Thread.todo, Thread.current, Thread.covered, Drain.record, or_left_comm, or_assoc]
      using hmem
  | passOver hd hnot =>
    have hmem := ht rfl
    rw [todo_mark, hd] at hmem
    rcases hmem with hmem | hmem
    · rcases List.mem_cons.1 hmem with rfl | hmem
      · exact absurd (hnot.symm.trans hid) Bool.false_ne_true
      · exact .inl hmem
    · exact .inr hmem
  | seeUnused | seeUsed =>
    simpa [Thread.todo, Thread.current, Thread.covered, Drain.record] using ht rfl
  | marked | makeCallback | signal => exact ht rfl
  | _ => cases hm

theorem Effect.marking_barrier (h : Effect m i t m' (.drainEndpoints es (.loadInFlight e d))) :
    e ∈ d.barriers := by
  cases h
  exact List.mem_append_right _ List.mem_cons_self

/-- A step after which a drain marks leaves the list as it is: its lock, and each step since. -/
theorem Effect.list_of_isMarking (heff : Effect m i t m' t') (ht : ts[i]? = some t)
    (hg : m.mutex.Guards (modes ts)) {u : Thread} (hu : u ∈ advance ts i t' t.starts)
    (hm : u.isMarking = true) : m'.upstreamEndpoints = m.upstreamEndpoints := by
  refine heff.upstreamEndpoints_eq.resolve_right fun hw => ?_
  rcases mem_advance ht hu with rfl | ⟨j, hji, hj⟩ | hu
  · simp [hw.2] at hm
  · exact not_writing_of_ne hg ht hw.1 hji hj (mode_of_isMarking hm)
  · cases eq_of_mem_starts hu
    cases hm

theorem marking_step (ht : ts[i]? = some t) (hg : m.mutex.Guards (modes ts))
    (hb : Bounded ⟨m, ts⟩) (h : Marking ⟨m, ts⟩) (heff : Effect m i t m' t') :
    Marking ⟨m', advance ts i t' t.starts⟩ := by
  have htmem := List.mem_of_getElem? ht
  have hnew : ∀ u ∈ t.starts, u.isMarking = false ∧ u.current = [] ∧ u.covered = [] := by
    intro u hu
    obtain rfl := eq_of_mem_starts hu
    exact ⟨rfl, rfl, rfl⟩
  have hlist : ∀ {u}, u ∈ advance ts i t' t.starts → u.isMarking = true → _ :=
    fun hu hm => heff.list_of_isMarking ht hg hu hm
  refine ⟨fun u hu hm => ?_, fun u hu e he => ?_, fun u hu hm e he hid => ?_,
    fun es e d hu => ?_, fun es d hu => ?_, fun es d hu => ?_⟩
  · rcases mem_advance ht hu with rfl | ⟨j, hji, hj⟩ | hu
    · show u.todo.Sublist m'.upstreamEndpoints
      rw [hlist hu hm]
      exact heff.marking_todo hm (h.todo t htmem)
    · show u.todo.Sublist m'.upstreamEndpoints
      rw [hlist hu hm]
      exact h.todo u (List.mem_of_getElem? hj) hm
    · simp [(hnew u hu).1] at hm
  · rcases mem_advance ht hu with rfl | ⟨j, hji, hj⟩ | hu
    · have hpt : t.PointsTo e ∨ e ∈ m.upstreamEndpoints := heff.pointsTo (.inr (.inr he))
      have hlt : e < m.allocated := hpt.elim (hb.held t htmem e) (hb.listed e)
      rw [isDrained_congr (heff.id_eq hlt)]
      exact heff.marking_patch (h.patch t htmem) he
    · have hmem := List.mem_of_getElem? hj
      rw [isDrained_congr (heff.id_eq (hb.held u hmem e (.inr (.inr he))))]
      exact h.patch u hmem e he
    · obtain ⟨-, hcur, hcov⟩ := hnew u hu
      rw [hcur, hcov] at he
      rcases he with he | he <;> cases he
  · rcases mem_advance ht hu with rfl | ⟨j, hji, hj⟩ | hu
    · have he' : e ∈ m.upstreamEndpoints := hlist hu hm ▸ he
      rw [isDrained_congr (heff.id_eq (hb.listed e he'))] at hid
      refine heff.marking_complete hm (fun htm => ?_) he' hid
      refine h.complete t htmem htm e he' ?_
      obtain ⟨-, hpatch, -⟩ | ⟨es, d, rfl, -⟩ := heff.isMarking htm
      · exact hpatch ▸ hid
      · cases heff
        cases hm
    · have he' : e ∈ m.upstreamEndpoints := hlist hu hm ▸ he
      rw [isDrained_congr (heff.id_eq (hb.listed e he'))] at hid
      exact h.complete u (List.mem_of_getElem? hj) hm e he' hid
    · simp [(hnew u hu).1] at hm
  · rcases mem_of_mem_advance hu with rfl | hsame | hu
    · exact heff.marking_barrier
    · exact h.barrier es e d hsame
    · exact absurd (hnew _ hu).1 (by simp [Thread.isMarking])
  · rcases mem_of_mem_advance hu with rfl | hsame | hu
    · cases heff
      assumption
    · exact h.swept es d hsame
    · cases eq_of_mem_starts hu
  · rcases mem_of_mem_advance hu with rfl | hsame | hu
    · cases heff
      assumption
    · exact h.returned es d hsame
    · cases eq_of_mem_starts hu

theorem marking_of_run (h : calls.machine.Run tr s) : Marking s := by
  refine h.invariant (I := fun _ s => Marking s) (G := fun _ => True) ?_ ?_ fun _ _ => trivial
  · rintro ⟨m, ts⟩ ⟨⟨p, rfl⟩, rfl⟩
    exact ⟨by simp, by simp, by simp, by simp, by simp, by simp⟩
  · intro tr s ev s' hrun hs _ hn
    rcases calls_next hn with ⟨t, -, ht, rfl⟩ | ⟨i, c, t, m', t', -, ht, heff, rfl⟩
    · have hview : t.isMarking = false ∧ t.current = [] ∧ t.covered = [] := by
        cases t <;> simp_all [Thread.isCall, Thread.isMarking, Thread.current, Thread.covered,
          Drain.record]
      -- a drain that comes in is at its lock
      have hdrain : ∀ {es pc}, pc ≠ .lock → .drainEndpoints es pc ∈ s.threads ++ [t] →
          .drainEndpoints es pc ∈ s.threads := by
        intro es pc hpc hu
        refine (List.mem_append.1 hu).resolve_right fun hu => ?_
        obtain rfl := List.mem_singleton.1 hu
        exact hpc (by cases pc <;> first | rfl | cases ht)
      exact ⟨forall_mem_concat hs.todo (by simp [hview]),
        forall_mem_concat hs.patch (by simp [hview]),
        forall_mem_concat hs.complete (by simp [hview]),
        fun es e d hu => hs.barrier es e d (hdrain Drain.noConfusion hu),
        fun es d hu => hs.swept es d (hdrain Drain.noConfusion hu),
        fun es d hu => hs.returned es d (hdrain Drain.noConfusion hu)⟩
    · exact marking_step ht (guards_of_run hrun) (bounded_of_run hrun) hs heff

/-- A drain has dealt with every endpoint of its patch when it comes to clear the list. -/
theorem covered_of_remove (h : calls.machine.Run tr s)
    (hd : .drainEndpoints es (.remove d) ∈ s.threads) (he : e ∈ s.shared.upstreamEndpoints)
    (hid : isDrained es (s.shared.heap e) = true) : e ∈ d.covered := by
  have hmark := marking_of_run h
  rcases hmark.complete _ hd rfl e he hid with htodo | hcur | hcov
  · have hnil : e ∈ ([] : List ℕ) := hmark.swept es d hd ▸ htodo
    cases hnil
  · cases hcur
  · exact hcov

theorem covered_of_remove_sandboxA : ∃ tr s, calls.machine.Run tr s ∧ ∃ d,
    .drainEndpoints [sandboxA] (.remove d) ∈ s.threads ∧ 0 ∈ d.covered := by
  obtain ⟨tr, s, hrun, hd, he, hid⟩ : ∃ tr s, calls.machine.Run tr s ∧
      .drainEndpoints [sandboxA] (.remove ⟨[], [0], [0]⟩) ∈ s.threads ∧
      0 ∈ s.shared.upstreamEndpoints ∧ isDrained [sandboxA] (s.shared.heap 0) = true :=
    Machine.exists_run_of_play (.start (.addEndpoints [sandboxA] .lock) :: runs 0 5 ++
      .start (.drainEndpoints [sandboxA] .lock) :: runs 1 6) fresh_init (by decide +kernel)
  exact ⟨tr, s, hrun, _, hd, covered_of_remove hrun hd he hid⟩

/-! ## Endpoints out of use -/

def Unused (ts : List Thread) (e : ℕ) : Prop := ∀ t ∈ ts, t.uses e = false

theorem unused_of_countP (h : ts.countP (Thread.uses e) = 0) : Unused ts e := by
  intro t ht
  exact Bool.eq_false_of_not_eq_true (List.countP_eq_zero.1 h t ht)

theorem not_uses_of_isLast (h : t.isLast e = true) : t.uses e = false := by
  cases t with
  | invocation pc => cases pc <;> first | rfl | simp [Thread.isLast] at h
  | _ => rfl

/-- A drained endpoint is on its way out: nobody is about to use it, and whoever signals that it is
out of use is right. -/
structure Settled (s : Pool FunctionMetadata Thread) (e : ℕ) : Prop where
  notSelected : ∀ t ∈ s.threads, t.selected e = false
  unused_of_isLast : ∀ t ∈ s.threads, t.isLast e = true → Unused s.threads e
  unused_of_signal : (s.shared.heap e).drainingCallback = some 1 → Unused s.threads e

/-- The drains of a run without an unsafe drain. -/
structure Drains (s : Pool FunctionMetadata Thread) : Prop where
  settled : ∀ u ∈ s.threads, ∀ e ∈ u.covered, Settled s e
  listed : ∀ u ∈ s.threads, ∀ e ∈ u.covered, e ∈ s.shared.upstreamEndpoints → u.isMarking = true
  waited : ∀ u ∈ s.threads, ∀ e ∈ u.covered, e ∈ u.barriers ∨ Unused s.threads e
  signal : ∀ es e d, .drainEndpoints es (.signal e d) ∈ s.threads →
    e ∈ d.covered ∧ Unused s.threads e
  marked : ∀ e ∈ s.shared.upstreamEndpoints, (s.shared.heap e).drained = true →
    ∃ t ∈ s.threads, t.isMarking = true ∧ e ∉ t.todo ∧ isDrained t.patch (s.shared.heap e) = true

section Step

variable {ts : List Thread} {c : Choice}

theorem starts_view {u : Thread} (hu : u ∈ t.starts) (e : ℕ) :
    u.selected e = false ∧ u.uses e = false ∧ u.isLast e = false ∧ u.covered = [] := by
  obtain rfl := eq_of_mem_starts hu
  exact ⟨rfl, rfl, rfl, rfl⟩

theorem unused_step (ht : ts[i]? = some t) (heff : Effect m i t m' t')
    (hsel : ∀ u ∈ ts, u.selected e = false) (h : Unused ts e) :
    Unused (advance ts i t' t.starts) e := by
  have htmem := List.mem_of_getElem? ht
  refine forall_mem_advance ?_ h fun u hu => (starts_view hu e).2.1
  by_contra huse
  rcases heff.uses (Bool.not_eq_false _ ▸ huse) with htu | hts
  · simp [h t htmem] at htu
  · simp [hsel t htmem] at hts

/-- A settled endpoint that no reader can find in the list stays settled. -/
theorem settled_step (ht : ts[i]? = some t) (heff : Effect m i t m' t') (he : e < m.allocated)
    (hcount : (m'.heap e).inFlight = (advance ts i t' t.starts).countP (Thread.uses e))
    (hread : e ∈ m.upstreamEndpoints → t.mode ≠ .reading)
    (hsignal : ∀ es d, t = .drainEndpoints es (.signal e d) → Unused ts e)
    (h : Settled ⟨m, ts⟩ e) : Settled ⟨m', advance ts i t' t.starts⟩ e := by
  have htmem := List.mem_of_getElem? ht
  have hkeep := unused_step ht heff h.notSelected
  refine ⟨forall_mem_advance ?_ h.notSelected fun u hu => (starts_view hu e).1,
    forall_mem_advance (fun hl => ?_) (fun u hu hl => hkeep (h.unused_of_isLast u hu hl))
      fun u hu => by simp [starts_view hu e], fun hs => ?_⟩
  · by_contra hsel
    rcases heff.selected (Bool.not_eq_false _ ▸ hsel) with hts | ⟨hmem, hmode⟩
    · simp [h.notSelected t htmem] at hts
    · exact hread hmem hmode
  · rcases heff.isLast hl with htl | ⟨htu, hone⟩
    · exact hkeep (h.unused_of_isLast t htmem htl)
    · -- the mover was the only user, and it is one no longer
      have hin := heff.inFlight he
      rw [htu, not_uses_of_isLast hl, hone, hcount] at hin
      simp only [if_true, Bool.false_eq_true, if_false] at hin
      have hzero : (advance ts i t' t.starts).countP (Thread.uses e) = 0 := by omega
      exact unused_of_countP hzero
  · refine hkeep ?_
    rcases heff.signalled he hs with hs | ⟨es, d, rfl⟩ | rfl
    · exact h.unused_of_signal hs
    · exact hsignal es d rfl
    · exact h.unused_of_isLast _ htmem (decide_eq_true rfl)

variable {es : List EndpointInfo} {d : Draining} {s' : Pool FunctionMetadata Thread}

/-- The endpoint whose counter a drain has just loaded is settled. -/
theorem settled_of_load (ht : ts[i]? = some (.drainEndpoints es (.loadInFlight e d)))
    (heff : Effect m i (.drainEndpoints es (.loadInFlight e d)) m' t')
    (hcount : (m.heap e).inFlight = ts.countP (Thread.uses e)) (hG : ¬ Miscounted ⟨m, ts⟩ e) :
    m' = m ∧ Settled ⟨m', advance ts i t' []⟩ e ∧
      ((m.heap e).inFlight = 0 → Unused (advance ts i t' []) e) := by
  simp only [Miscounted, not_or, not_exists, not_and, Bool.not_eq_true] at hG
  obtain ⟨hsel, hlast⟩ := hG
  have hm : m' = m := by cases heff <;> rfl
  have hzero : (m.heap e).inFlight = 0 → Unused (advance ts i t' []) e := by
    intro hzero
    have hcount' : ts.countP (Thread.uses e) = 0 := by omega
    exact unused_step ht heff hsel (unused_of_countP hcount')
  refine ⟨hm, ⟨forall_mem_advance (by cases heff <;> rfl) hsel (List.forall_mem_nil _),
    forall_mem_advance ?_ (fun u hu hl => hzero ?_) (List.forall_mem_nil _), fun hs => ?_⟩, hzero⟩
  · cases heff <;> nofun
  · by_contra hne
    simp [(hlast hne).2 u hu] at hl
  · refine hzero ?_
    by_contra hne
    exact (hlast hne).1 (hm ▸ hs)

/-- The removal of a safe drain leaves none of its endpoints in the list. -/
theorem not_mem_of_remove (ht : ts[i]? = some (.drainEndpoints es (.remove d)))
    (hG : ¬ UnsafeDrain ⟨⟨m, ts⟩, .run i c, s'⟩) (hid : isDrained es (m.heap e) = true) :
    e ∉ FunctionMetadata.removeByURL m.heap es m.upstreamEndpoints := by
  intro hmem
  exact hG ⟨_, ht, e, hmem, hid⟩

theorem not_miscounted_of_load (ht : ts[i]? = some (.drainEndpoints es (.loadInFlight e d)))
    (hG : ¬ UnsafeDrain ⟨⟨m, ts⟩, .run i c, s'⟩) : ¬ Miscounted ⟨m, ts⟩ e :=
  fun hmis => hG ⟨_, ht, hmis⟩

theorem Drains.not_drained (h : Drains ⟨m, ts⟩) (hmark : Marking ⟨m, ts⟩)
    (hg : m.mutex.Guards (modes ts)) (ht : ts[i]? = some t) (htm : t.isMarking = true)
    (he : e ∈ t.todo) : (m.heap e).drained = false := by
  by_contra hd
  rw [Bool.not_eq_false] at hd
  have hmem := (hmark.todo t (List.mem_of_getElem? ht) htm).subset he
  obtain ⟨u, hu, hum, hnot, -⟩ := h.marked e hmem hd
  obtain rfl := eq_of_writing hg ht (mode_of_isMarking htm) hu (mode_of_isMarking hum)
  exact hnot he

end Step

/-! One step of a run without an unsafe drain, part by part. -/

section Step

variable {ts : List Thread} {c : Choice} (ht : ts[i]? = some t) (hg : m.mutex.Guards (modes ts))
  (hb : Bounded ⟨m, ts⟩) (hmark : Marking ⟨m, ts⟩) (heff : Effect m i t m' t')
  (hcount : ∀ e < m.allocated, (m.heap e).inFlight = ts.countP (Thread.uses e))
  (hcount' : ∀ e < m'.allocated,
    (m'.heap e).inFlight = (advance ts i t' t.starts).countP (Thread.uses e))
  (h : Drains ⟨m, ts⟩)
  (hG : ¬ UnsafeDrain ⟨⟨m, ts⟩, .run i c, ⟨m', advance ts i t' t.starts⟩⟩)

variable {u : Thread} {es : List EndpointInfo} {d : Draining}

include hb in
theorem lt_of_covered (hu : u ∈ ts) (he : e ∈ u.covered) : e < m.allocated :=
  hb.held u hu e (.inr (.inr (.inr he)))

include ht heff h in
theorem Drains.unused (hu : u ∈ ts) (he : e ∈ u.covered) (hun : Unused ts e) :
    Unused (advance ts i t' t.starts) e :=
  unused_step ht heff (h.settled u hu e he).notSelected hun

theorem mem_of_mem_of_lt (heff : Effect m i t m' t') (he : e < m.allocated)
    (hmem : e ∈ m'.upstreamEndpoints) : e ∈ m.upstreamEndpoints := by
  refine (heff.mem_upstreamEndpoints hmem).resolve_right fun hnew => ?_
  exact absurd he (not_lt.2 hnew.1)

include ht hg hmark h in
theorem Drains.not_markAgain {todo : List ℕ} (heq : t = .drainEndpoints es (.mark d))
    (hd : d.todo = e :: todo) :
    (m.heap e).drained ≠ true := by
  subst heq
  have hfalse := h.not_drained hmark hg ht rfl (e := e)
    (by rw [todo_mark, hd]; exact List.mem_cons_self)
  simp [hfalse]

include ht hg hb hmark heff hcount hcount' h hG in
theorem drains_settled (hu : u ∈ advance ts i t' t.starts) (he : e ∈ u.covered) :
    Settled ⟨m', advance ts i t' t.starts⟩ e := by
  have htmem := List.mem_of_getElem? ht
  have hold : ∀ u ∈ ts, e ∈ u.covered → Settled ⟨m', advance ts i t' t.starts⟩ e := by
    intro u hu he
    have hlt := lt_of_covered hb hu he
    refine settled_step ht heff hlt (hcount' e (lt_of_lt_of_le hlt heff.allocated_le)) ?_ ?_
      (h.settled u hu e he)
    · -- a reader finds the list as it is after the removal
      intro hmem hread
      obtain ⟨j, hj⟩ := List.mem_iff_getElem?.1 hu
      have hw := mode_of_isMarking (h.listed u hu e he hmem)
      exact hg.not_reading ((modes_of_getElem? hj).trans hw) ((modes_of_getElem? ht).trans hread)
    · rintro es d rfl
      exact (h.signal es e d htmem).2
  rcases mem_of_mem_advance hu with rfl | hsame | hu
  · rcases heff.covered he with he | ⟨es, d, rfl⟩ | ⟨es, d, todo, heq, hd, -, htrue⟩
    · exact hold t htmem he
    · have hlt : e < m.allocated := hb.held _ htmem e (.inr (.inr (.inl List.mem_cons_self)))
      exact (settled_of_load ht heff (hcount e hlt) (not_miscounted_of_load ht hG)).2.1
    · exact absurd htrue (h.not_markAgain ht hg hmark heq hd)
  · exact hold u hsame he
  · simp [(starts_view hu e).2.2.2] at he

include ht hg hb hmark heff h hG in
theorem drains_listed (hu : u ∈ advance ts i t' t.starts) (he : e ∈ u.covered)
    (hmem : e ∈ m'.upstreamEndpoints) : u.isMarking = true := by
  have htmem := List.mem_of_getElem? ht
  rcases mem_of_mem_advance hu with rfl | hsame | hu
  · rcases heff.covered he with he | ⟨es, d, rfl⟩ | ⟨es, d, todo, heq, hd, -, htrue⟩
    · have hold := h.listed t htmem e he (mem_of_mem_of_lt heff (lt_of_covered hb htmem he) hmem)
      rcases heff.isMarking hold with ⟨hm, -, -⟩ | ⟨es, d, rfl, rfl⟩
      · exact hm
      · exact absurd hmem (not_mem_of_remove ht hG (hmark.patch _ htmem e (.inr he)))
    · cases heff <;> rfl
    · exact absurd htrue (h.not_markAgain ht hg hmark heq hd)
  · exact h.listed u hsame e he (mem_of_mem_of_lt heff (lt_of_covered hb hsame he) hmem)
  · simp [(starts_view hu e).2.2.2] at he

include ht hg hmark heff h in
theorem drains_waited (hu : u ∈ advance ts i t' t.starts) (he : e ∈ u.covered) :
    e ∈ u.barriers ∨ Unused (advance ts i t' t.starts) e := by
  have htmem := List.mem_of_getElem? ht
  rcases mem_of_mem_advance hu with rfl | hsame | hu
  · rcases heff.covered he with he | ⟨es, d, rfl⟩ | ⟨es, d, todo, heq, hd, -, htrue⟩
    · rcases h.waited t htmem e he with hbar | hun
      · refine (heff.barriers hbar).imp_right fun hs => ?_
        exact h.unused ht heff htmem he ((h.settled t htmem e he).unused_of_signal hs)
      · exact .inr (h.unused ht heff htmem he hun)
    · have hbar := hmark.barrier es e d htmem
      exact .inl (by cases heff <;> exact hbar)
    · exact absurd htrue (h.not_markAgain ht hg hmark heq hd)
  · exact (h.waited u hsame e he).imp_right (h.unused ht heff hsame he)
  · simp [(starts_view hu e).2.2.2] at he

include ht hb heff hcount h hG in
theorem drains_signal (hu : .drainEndpoints es (.signal e d) ∈ advance ts i t' t.starts) :
    e ∈ d.covered ∧ Unused (advance ts i t' t.starts) e := by
  rcases mem_of_mem_advance hu with rfl | hsame | hu
  · cases heff with
    | @seeUnused _ _ d' hzero =>
      have hlt : e < m.allocated :=
        hb.held _ (List.mem_of_getElem? ht) e (.inr (.inr (.inl List.mem_cons_self)))
      refine ⟨List.mem_cons_self, ?_⟩
      exact (settled_of_load ht (.seeUnused hzero) (hcount e hlt)
        (not_miscounted_of_load ht hG)).2.2 hzero
  · obtain ⟨hcov, hun⟩ := h.signal es e d hsame
    exact ⟨hcov, h.unused ht heff hsame hcov hun⟩
  · cases eq_of_mem_starts hu

include ht hb hmark heff h hG in
theorem drains_marked (hmem : e ∈ m'.upstreamEndpoints) (hd : (m'.heap e).drained = true) :
    ∃ u ∈ advance ts i t' t.starts, u.isMarking = true ∧ e ∉ u.todo ∧
      isDrained u.patch (m'.heap e) = true := by
  have htmem := List.mem_of_getElem? ht
  have hself := mem_advance_self t' t.starts ht
  by_cases hlt : e < m.allocated
  · have hmem' := mem_of_mem_of_lt heff hlt hmem
    have hsame : ∀ es, isDrained es (m'.heap e) = isDrained es (m.heap e) := fun es =>
      isDrained_congr (heff.id_eq hlt)
    simp only [hsame]
    rcases heff.drained_eq_true hlt hd with hd | ⟨es, d, todo, rfl, htodo, hid, rfl⟩
    · obtain ⟨u, hu, hum, hnot, hid⟩ := h.marked e hmem' hd
      by_cases hut : u = t
      · subst hut
        rcases heff.isMarking hum with ⟨hm, hpatch, htodo⟩ | ⟨es, d, rfl, rfl⟩
        · exact ⟨t', hself, hm, fun he => hnot (htodo e he), hpatch ▸ hid⟩
        · exact absurd hmem (not_mem_of_remove ht hG hid)
      · exact ⟨u, mem_advance_of_ne _ _ ht hu hut, hum, hnot, hid⟩
    · -- the list has no endpoint twice, so the one just marked is not met again
      refine ⟨_, hself, rfl, ?_, hid⟩
      have hsub := hmark.todo _ htmem rfl
      rw [todo_mark, htodo] at hsub
      exact (List.nodup_cons.1 (hb.nodup.sublist hsub)).1
  · -- a new endpoint is not marked
    rcases heff.mem_upstreamEndpoints hmem with hmem' | ⟨hle, hlt'⟩
    · exact absurd (hb.listed e hmem') hlt
    · rcases heff.allocated with heq | ⟨es, -, rfl⟩
      · exact absurd (heq ▸ hlt') hlt
      · obtain ⟨info, hnew⟩ := addToEndpointList_heap_new m es hle hlt'
        rw [hnew] at hd
        cases hd

end Step

theorem isCall_view (h : t.isCall = true) (e : ℕ) :
    t.selected e = false ∧ t.uses e = false ∧ t.isLast e = false ∧ t.covered = [] := by
  cases t <;> simp_all [Thread.isCall, Thread.selected, Thread.uses, Thread.isLast,
    Thread.covered, Drain.record]

theorem drains_start (ht : t.isCall = true) (h : Drains ⟨m, ts⟩) :
    Drains ⟨m, ts ++ [t]⟩ := by
  have hview := isCall_view ht
  have hunused : ∀ {e}, Unused ts e → Unused (ts ++ [t]) e := fun hun =>
    forall_mem_concat hun (hview _).2.1
  have hcov : ∀ e, e ∉ t.covered := by simp [(hview 0).2.2.2]
  refine ⟨forall_mem_concat (fun u hu e he => ?_) fun e he => absurd he (hcov e),
    forall_mem_concat h.listed fun e he => absurd he (hcov e),
    forall_mem_concat (fun u hu e he => (h.waited u hu e he).imp_right hunused)
      fun e he => absurd he (hcov e), fun es e d hu => ?_, fun e he hd => ?_⟩
  · have hs := h.settled u hu e he
    exact ⟨forall_mem_concat hs.notSelected (hview e).1,
      forall_mem_concat (fun v hv hl => hunused (hs.unused_of_isLast v hv hl)) (by simp [hview e]),
      fun hsig => hunused (hs.unused_of_signal hsig)⟩
  · rcases List.mem_append.1 hu with hu | hu
    · exact (h.signal es e d hu).imp_right hunused
    · obtain rfl := List.mem_singleton.1 hu
      cases ht
  · obtain ⟨u, hu, hrest⟩ := h.marked e he hd
    exact ⟨u, List.mem_append_left _ hu, hrest⟩

theorem drains_of_run (h : calls.machine.Run tr s) (hG : ∀ st ∈ tr, ¬ UnsafeDrain st) :
    Drains s := by
  refine h.invariant (I := fun _ s => Drains s) (G := fun st => ¬ UnsafeDrain st) ?_ ?_ hG
  · rintro ⟨m, ts⟩ ⟨⟨p, rfl⟩, rfl⟩
    exact ⟨by simp, by simp, by simp, by simp, by simp [newFunctionMetadata]⟩
  · intro tr s ev s' hrun hs hstep hn
    have hcount := inFlight_of_run hrun
    have hcount' := inFlight_of_run (hrun.step hn)
    rcases calls_next hn with ⟨t, rfl, ht, rfl⟩ | ⟨i, c, t, m', t', rfl, ht, heff, rfl⟩
    · exact drains_start ht hs
    · have hg := guards_of_run hrun
      have hb := bounded_of_run hrun
      have hmark := marking_of_run hrun
      exact {
        settled := fun u hu e => drains_settled ht hg hb hmark heff hcount hcount' hs hstep hu
        listed := fun u hu e => drains_listed ht hg hb hmark heff hs hstep hu
        waited := fun u hu e => drains_waited ht hg hmark heff hs hu
        signal := fun es e d => drains_signal ht hb heff hcount hs hstep
        marked := fun e => drains_marked ht hb hmark heff hs hstep }

/-- **Drain safety.** In a run without an unsafe drain, no request is between its selection of a
drained endpoint and its `giveBackCCCapacity` once the drain has returned. -/
theorem drain_safe {tr : List (Machine.Step _ _)} {s : Pool FunctionMetadata Thread}
    (h : calls.machine.Run tr s) (hG : ∀ st ∈ tr, ¬ UnsafeDrain st) {es : List EndpointInfo}
    {d : Draining} (hd : .drainEndpoints es (.returned d) ∈ s.threads) {e : ℕ}
    (he : e ∈ d.covered) : ∀ t ∈ s.threads, t.isAssigned e = false := by
  have hdrains := drains_of_run h hG
  have hbarriers : d.barriers = [] := (marking_of_run h).returned es d hd
  intro t ht
  have hsel := (hdrains.settled _ hd e he).notSelected t ht
  rcases hdrains.waited _ hd e he with hbar | hun
  · have hnil : e ∈ ([] : List ℕ) := hbarriers ▸ hbar
    cases hnil
  · rw [Thread.isAssigned, hsel, hun t ht]
    rfl

instance (s : Pool FunctionMetadata Thread) (e : ℕ) : Decidable (Miscounted s e) :=
  inferInstanceAs (Decidable (_ ∨ _))

instance (s : Pool FunctionMetadata Thread) (t : Thread) : Decidable (DrainsUnsafely s t) :=
  match t with
  | .drainEndpoints _ (.loadInFlight e _) => inferInstanceAs (Decidable (Miscounted s e))
  | .drainEndpoints _ (.remove _) => inferInstanceAs (Decidable (∃ e ∈ _, _))
  | .drainEndpoints _ .lock | .drainEndpoints _ (.mark _) | .drainEndpoints _ (.makeCallback _ _)
  | .drainEndpoints _ (.signal _ _) | .drainEndpoints _ (.storeCount _)
  | .drainEndpoints _ (.unlock _) | .drainEndpoints _ (.wait _) | .drainEndpoints _ (.returned _)
  | .tryWarmStart _ | .decreaseInflight _ | .sendMetricsToAutoscaler _ | .addEndpoints _ _
  | .removeAllEndpoints _ | .invocation _ => inferInstanceAs (Decidable False)

instance (st : Machine.Step (Pool FunctionMetadata Thread) (Threads.Event Thread Choice)) :
    Decidable (UnsafeDrain st) :=
  match st with
  | ⟨_, .run _ _, _⟩ => inferInstanceAs (Decidable (∃ t ∈ _, _))
  | ⟨_, .start _, _⟩ => inferInstanceAs (Decidable False)

/-- A sandbox comes up, and a request picks it. -/
def pickedSandbox : List (Threads.Event Thread Choice) :=
  .start (.addEndpoints [sandboxA] .lock) :: runs 0 5 ++
    .start (.invocation .incrementQueueDepth) :: runs 1 2 ++ [.run 1 (.endpoint 0)] ++ runs 1 1

/-- A drain comes while the request is at the sandbox, and waits for it. -/
def patientDrain : List (Threads.Event Thread Choice) :=
  pickedSandbox ++ runs 1 3 ++ .start (.drainEndpoints [sandboxA] .lock) :: runs 2 8 ++ runs 1 6 ++
    [.run 2 (.barrier 0)] ++ runs 2 1

theorem drain_safe_patientDrain :
    ∃ tr s, calls.machine.Run tr s ∧ .invocation .returned ∈ s.threads ∧
      .drainEndpoints [sandboxA] (.returned ⟨[], [0], []⟩) ∈ s.threads ∧
      ∀ t ∈ s.threads, t.isAssigned 0 = false := by
  obtain ⟨tr, s, hrun, hG, hreq, hd⟩ := Machine.exists_run_of_play patientDrain
    (P := fun tr s => (∀ st ∈ tr, ¬ UnsafeDrain st) ∧ .invocation .returned ∈ s.threads ∧
      .drainEndpoints [sandboxA] (.returned ⟨[], [0], []⟩) ∈ s.threads)
    fresh_init (by decide +kernel)
  exact ⟨tr, s, hrun, hreq, hd, drain_safe hrun hG hd List.mem_cons_self⟩

/-- A drain comes while the request waits for capacity: it finds no request in flight and returns;
then the request goes to the drained sandbox. -/
def hastyDrain : List (Threads.Event Thread Choice) :=
  pickedSandbox ++ .start (.drainEndpoints [sandboxA] .lock) :: runs 2 9 ++ [.run 2 (.barrier 0)] ++
    runs 2 1 ++ runs 1 3

theorem not_drain_safe : ¬ ∀ (tr : List (Machine.Step _ _)) (s : Pool FunctionMetadata Thread),
    calls.machine.Run tr s → ∀ es d, .drainEndpoints es (.returned d) ∈ s.threads →
      ∀ e ∈ d.covered, ∀ t ∈ s.threads, t.isAssigned e = false := by
  intro hall
  obtain ⟨tr, s, hrun, hd, hreq⟩ := Machine.exists_run_of_play hastyDrain
    (P := fun _ s => .drainEndpoints [sandboxA] (.returned ⟨[], [0], []⟩) ∈ s.threads ∧
      .invocation (.proxying 0) ∈ s.threads) fresh_init (by decide +kernel)
  exact absurd (hall tr s hrun _ _ hd 0 List.mem_cons_self _ hreq) (by decide)

/-! ## What a drain takes from the list -/

variable {heap : ℕ → UpstreamEndpoint} {l : List ℕ}

end Dirigent.DataPlane
