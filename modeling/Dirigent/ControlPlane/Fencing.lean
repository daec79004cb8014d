import Dirigent.ControlPlane.Teardown

/-!
# Fencing of a deposed leader

When a replica loses the leadership, the API server stops the autoscalers and replaces its control
plane by a new one. The goroutines of the old one are not stopped. They make no further call to
workers and data planes if, at the replacement, none of them has anything left to do that leads to
such a call: it has finished, or it is `Op.isInert`, or it is a scaling loop that waits for a value
or finds its channel closed.

* `issues` — a step that calls a worker or a data plane.
* `fenced` — the condition: the replacement finds quiet goroutines, and no new calls come in.
* `quiet_of_run` — after a replacement under this condition all goroutines stay quiet.
-/

namespace Dirigent.ControlPlane

open Threads

/-- The calls that a deposed leader should not make. -/
def Act.isOutgoing : Act → Bool
  | .createSandbox _ _ | .deleteSandbox _ _ _ | .drainSandbox _ _ _
  | .updateEndpointList _ _ _ => true
  | _ => false

/-- The step is such a call. -/
def issues (st : Machine.Step System (Threads.Event Op Choice)) : Bool :=
  match st.event with
  | .start _ => false
  | .run i _ => st.src.threads[i]?.any fun t => match t.code with
    | .act a _ => a.isOutgoing
    | _ => false

/-- What neither makes such a call nor starts what does, other than the loops of services. -/
def Op.isInert : Op → Bool
  | .deregisterDataplane _ | .registerNode _ | .deregisterNode _ | .nodeHeartbeat _
  | .deregisterService _ | .cleanControlPlaneInMemoryData | .connectToWorker _
  | .reconstructWorker _ | .reconstructService _ => true
  | _ => false

/-- A scaling loop waits for a value, or its channel is closed. -/
def parked (s : State) : Code Unit → Bool
  | .act (.receive _) _ => true
  | .act (.tryReceive c) _ => (s.services c).channelClosed
  | .jump (.takeLastValue c _ _) => (s.services c).channelClosed
  | _ => false

/-- As long as nobody sends desired scales, the goroutine has nothing left to do that leads to such
a call. -/
def quiet (s : State) (t : Goroutine Op (Code Unit)) : Bool :=
  decide (t.phase = .finished) || t.op.isInert || parked s t.code

/-- Nobody is sending a desired scale. -/
def NoOffers (s : State) : Prop := ∀ c < s.serviceCount, (s.services c).offer = none

instance (s : State) : Decidable (NoOffers s) := Nat.decidableBallLT _ _

/-- The condition: the control plane is replaced when nobody is sending a desired scale and all
goroutines are quiet, and afterwards only inert calls come in. -/
def fenced (st : Machine.Step System (Threads.Event Op Choice)) : Bool :=
  match st.event with
  | .start op => !st.src.shared.data.discarded || op.isInert
  | .run _ _ => st.src.shared.data.discarded || !st.dst.shared.data.discarded ||
      (decide (NoOffers st.src.shared.data) && st.src.threads.all (quiet st.src.shared.data))

/-! ## What actions leave -/

variable {s s' : State} {a : Act} {r : a.Ans} {ch : Choice} {o op : Op}

theorem exec_discarded (ha : a ≠ .replaceControlPlane) (he : exec a s ch = some (r, s')) :
    s'.discarded = s.discarded := by
  cases a with
  | replaceControlPlane => exact absurd rfl ha
  | receive c =>
    obtain rfl | rfl := exec_receive_state he <;> rfl
  | _ =>
    simp only [exec] at he
    repeat' split at he
    all_goals cases he
    all_goals rfl

theorem exec_noOffers (ha : ∀ c n, a ≠ .offer c n) (he : exec a s ch = some (r, s'))
    (hs : NoOffers s) :
    NoOffers s' := by
  have hupdate : ∀ {c : ℕ} {f : Service → Service},
      ((s.services c).offer = none → (f (s.services c)).offer = none) →
      NoOffers (s.modifyService c f) := by
    intro c f hf c' hc'
    by_cases hcc : c' = c
    · subst hcc
      rw [modifyService_services_self]
      exact hf (hs c' hc')
    · rw [modifyService_services_ne hcc]
      exact hs c' hc'
  cases a with
  | offer c n => exact absurd rfl (ha c n)
  | setService info b =>
    cases he
    intro c hc
    by_cases hcc : c = s.serviceCount
    · subst hcc
      simp
    · have hold := hs c (lt_of_le_of_ne (Nat.le_of_lt_succ hc) hcc)
      simpa [hcc] using hold
  | receive c =>
    obtain rfl | rfl := exec_receive_state he
    · exact hs
    · exact hupdate fun _ => rfl
  | _ =>
    simp only [exec] at he
    repeat' split at he
    all_goals cases he
    all_goals
      first
      | exact hs
      | exact hupdate fun h => h
      | exact hupdate fun _ => rfl

/-! ## Goroutines stay quiet -/

/-- Where a scaling loop is that waits for a value or finds its channel closed. -/
def LoopPos.Parked (s : State) : LoopPos → Prop
  | .waiting _ => True
  | .draining c _ | .received c _ => (s.services c).channelClosed = true
  | _ => False

/-- What `quiet` says of a goroutine, in terms of the protocols. -/
def StaysQuiet (s : State) (g : Goroutine Op ((Op × List Ref) × LoopPos)) : Prop :=
  g.phase = .finished ∨ g.op.isInert = true ∨ g.code.2.Parked s

theorem LoopPos.Parked.frame {x : LoopPos} (h : x.Parked s)
    (hclosed : ∀ c, x.service = some c → (s.services c).channelClosed = true →
      (s'.services c).channelClosed = true) : x.Parked s' := by
  cases x with
  | waiting c => trivial
  | draining c b | received c b => exact hclosed c rfl h
  | other | scaling c b => exact h

/-- An inert goroutine starts inert ones and loops, and does not jump. -/
theorem Op.isInert_of_mayStart (ho : o.isInert = true) (hstart : o.mayStart op = true) :
    op.isInert = true ∨ ∃ c, op = .scalingControllerLoop c := by
  cases op with
  | scalingControllerLoop c => exact .inr ⟨c, rfl⟩
  | connectToWorker n | reconstructWorker n | reconstructService info => exact .inl rfl
  | _ => cases o <;> first | (cases hstart; done) | cases ho

theorem Op.not_mayJump_of_isInert (ho : o.isInert = true) : o.mayJump op = false := by
  cases o <;> first | rfl | cases ho

theorem Op.not_may_of_isInert (ho : o.isInert = true) (hmay : o.may a = true) :
    a.isOutgoing = false ∧ ∀ c n, a ≠ .offer c n := by
  constructor
  · cases a with
    | createSandbox n info | deleteSandbox n id port | drainSandbox ip name es
    | updateEndpointList ip name es => cases o <;> first | (cases hmay; done) | cases ho
    | _ => rfl
  · rintro c n rfl
    cases o <;> first | cases hmay | cases ho

section

variable {s s' : Shared Lock State} {gs new : List (Goroutine Op ((Op × List Ref) × LoopPos))}
  {g g' : Goroutine Op ((Op × List Ref) × LoopPos)} {i : ℕ} {ch : Choice}

theorem LoopPos.Parked.label {s : State} {x : LoopPos} (hx : x.Parked s)
    {l : Label Lock Act Op Act.Ans} (hguard : loopWatch.guard x l) :
    (∃ c r, x = .waiting c ∧ l = .act (.receive c) r) ∨
    (∃ c b r, x = .draining c b ∧ l = .act (.tryReceive c) r) ∨
    ∃ c b n, x = .received c b ∧ l = .jump (.takeLastValue c n b) := by
  cases x with
  | waiting c =>
    obtain ⟨r, hr⟩ := hguard
    exact .inl ⟨c, r, rfl, hr⟩
  | draining c b =>
    obtain ⟨r, hr⟩ := hguard
    exact .inr (.inl ⟨c, b, r, rfl, hr⟩)
  | received c b =>
    obtain ⟨n, hn⟩ := hguard
    exact .inr (.inr ⟨c, b, n, rfl, hn⟩)
  | other | scaling c b => cases hx

theorem LoopPos.Parked.not_ended {s : State} {x : LoopPos} (hx : x.Parked s) :
    ¬ loopWatch.ended x := by
  cases x with
  | waiting c | draining c b | received c b => exact fun h => h
  | other | scaling c b => cases hx

/-- A parked loop does nothing but go round. -/
theorem LoopPos.Parked.move (hpark : g.code.2.Parked s.data) (hno : NoOffers s.data)
    (hlt : ∀ c, g.code.2.service = some c → c < s.data.serviceCount)
    (hm : (known.prod loopWatch).Moves exec s i g ch s' g' new) :
    s'.data = s.data ∧ g'.code.2.Parked s.data ∧ new = [] := by
  have hother : ∀ {l : Label Lock Act Op Act.Ans}, (known.prod loopWatch).guard g.code l →
      (∀ a r, l ≠ .act a r) → (∀ d, l ≠ .jump d) → False := by
    intro l hguard hact hjump
    rcases hpark.label hguard.2 with ⟨c, r, -, hl⟩ | ⟨c, b, r, -, hl⟩ | ⟨c, b, n, -, hl⟩
    · exact hact _ r hl
    · exact hact _ r hl
    · exact hjump _ hl
  cases hm with
  | @act a r d _ hguard hexec =>
    rcases hpark.label hguard.2 with ⟨c, r', hx, hl⟩ | ⟨c, b, r', hx, hl⟩ | ⟨c, b, n, -, hl⟩
    · cases hl
      have hnone := hno c (hlt c (by rw [hx]; rfl))
      simp only [exec, hnone, Option.map_none] at hexec
      split at hexec
      · next hclosed =>
        cases hexec
        refine ⟨rfl, ?_, rfl⟩
        simp only [Protocol.prod, hx]
        exact hclosed
      · cases hexec
    · cases hl
      rw [hx] at hpark
      have hclosed : (s.data.services c).channelClosed = true := hpark
      simp only [exec, hclosed, if_true] at hexec
      cases hexec
      refine ⟨rfl, ?_, rfl⟩
      simp only [Protocol.prod, hx]
      exact hclosed
    · cases hl
  | @jump d _ hguard =>
    rcases hpark.label hguard.2 with ⟨c, r', hx, hl⟩ | ⟨c, b, r', hx, hl⟩ | ⟨c, b, n, hx, hl⟩
    · cases hl
    · cases hl
    · cases hl
      rw [hx] at hpark
      exact ⟨rfl, hpark, rfl⟩
  | finish _ hended => exact absurd hended.2 hpark.not_ended
  | announce _ hguard _ | acquire _ hguard _ | unlock _ hguard | rlock _ hguard _
  | runlock _ hguard | go _ hguard | join _ hguard | joined _ hguard _ =>
    exact (hother hguard (by simp) (by simp)).elim

theorem inert_move (hinert : g.op.isInert = true) (hop : g.code.1.1 = g.op) (hno : NoOffers s.data)
    (hm : (known.prod loopWatch).Moves exec s i g ch s' g' new) :
    NoOffers s'.data ∧ g'.op.isInert = true ∧ ∀ u ∈ new, StaysQuiet s'.data u := by
  have hnone : ∀ u ∈ ([] : List (Goroutine Op ((Op × List Ref) × LoopPos))), StaysQuiet s'.data u :=
    fun u hu => by cases hu
  have hstarted : ∀ (cs : List Op) (parent : Option ℕ),
      (∀ c ∈ cs, g.code.1.1.mayStart c = true ∧ c.refs ⊆ g.code.1.2) →
      ∀ u ∈ cs.map ((known.prod loopWatch).goroutine parent), StaysQuiet s'.data u := by
    intro cs parent hcs u hu
    obtain ⟨op, hmem, rfl⟩ := List.mem_map.1 hu
    have hstart := (hcs op hmem).1
    rw [hop] at hstart
    rcases Op.isInert_of_mayStart hinert hstart with hi | ⟨c, rfl⟩
    · exact .inr (.inl hi)
    · exact .inr (.inr trivial)
  cases hm with
  | act _ hguard hexec =>
    have hmay := hguard.1.1
    rw [hop] at hmay
    exact ⟨exec_noOffers (Op.not_may_of_isInert hinert hmay).2 hexec hno, hinert, hnone⟩
  | jump _ hguard =>
    have hjump := hguard.1.1
    rw [hop, Op.not_mayJump_of_isInert hinert] at hjump
    cases hjump
  | go _ hguard => exact ⟨hno, hinert, hstarted _ none hguard.1⟩
  | join _ hguard => exact ⟨hno, hinert, hstarted _ (some i) hguard.1⟩
  | finish =>
    refine ⟨?_, hinert, hnone⟩
    rwa [Shared.report_data]
  | announce | acquire | unlock | rlock | runlock | joined => exact ⟨hno, hinert, hnone⟩

/-- Once the control plane has been replaced, all goroutines are quiet. -/
def QuietAfter (s : Shared Lock State) (gs : List (Goroutine Op ((Op × List Ref) × LoopPos))) :
    Prop :=
  s.data.discarded = true → NoOffers s.data ∧ ∀ g ∈ gs, StaysQuiet s.data g

theorem staysQuiet_of_quiet {t : Goroutine Op (Code Unit)}
    (hfit : Fits s.data g.op g.phase g.code.2)
    (hop : g.code.1.1 = g.op) (hsim : (known.prod loopWatch).Sim anyAnswer g t)
    (hquiet : quiet s.data t = true) : StaysQuiet s.data g := by
  obtain ⟨hfollows, hopt, -, hphase⟩ := hsim
  simp only [quiet, Bool.or_eq_true, decide_eq_true_eq] at hquiet
  rcases hquiet with (hfinished | hinert) | hpark
  · exact .inl (hphase.trans hfinished)
  · exact .inr (.inl (hopt ▸ hinert))
  · -- the code shows where the loop is
    refine .inr (.inr ?_)
    have hloop : ∀ c, g.op.isLoopOf c = true → g.code.2 ≠ .other := by
      intro c hc hx
      have hservice := (hfit.service c).1 hc
      rw [hx] at hservice
      cases hservice
    obtain ⟨⟨⟨o, refs⟩, x⟩, op, parent, phase⟩ := g
    obtain ⟨code, opt, parent', phase'⟩ := t
    obtain rfl : o = op := hop
    unfold parked at hpark
    split at hpark
    · next c k hcode =>
      obtain rfl : code = .act (.receive c) k := hcode
      obtain ⟨hknown, hguard⟩ := (hfollows (0, false) trivial).1
      cases x with
      | other => exact absurd rfl (hloop c hknown.1)
      | waiting c' => trivial
      | draining c' b =>
        obtain ⟨r, hr⟩ := hguard
        cases hr
      | received c' b =>
        obtain ⟨n, hn⟩ := hguard
        cases hn
      | scaling c' b => cases hguard
    · next c k hcode =>
      obtain rfl : code = .act (.tryReceive c) k := hcode
      obtain ⟨hknown, hguard⟩ := (hfollows none trivial).1
      cases x with
      | other => exact absurd rfl (hloop c hknown.1)
      | waiting c' =>
        obtain ⟨r, hr⟩ := hguard
        cases hr
      | draining c' b =>
        obtain ⟨r, hr⟩ := hguard
        cases hr
        exact hpark
      | received c' b =>
        obtain ⟨n, hn⟩ := hguard
        cases hn
      | scaling c' b => cases hguard
    · next c n b hcode =>
      obtain rfl : code = .jump (.takeLastValue c n b) := hcode
      obtain ⟨hknown, hguard⟩ := hfollows
      cases x with
      | other =>
        refine absurd rfl (hloop c ?_)
        cases o with
        | scalingControllerLoop c' | takeLastValue c' n' b' =>
          simpa [Op.isLoopOf, Op.mayJump, eq_comm] using hknown.1
        | _ => cases hknown.1
      | waiting c' | draining c' b' =>
        obtain ⟨r, hr⟩ := hguard
        cases hr
      | received c' b' =>
        obtain ⟨n', hn'⟩ := hguard
        cases hn'
        exact hpark
      | scaling c' b' => cases hguard
    · cases hpark

theorem replace_of_move (hbefore : s.data.discarded = false) (hafter : s'.data.discarded = true)
    (hop : g.code.1.1 = g.op) (hm : (known.prod loopWatch).Moves exec s i g ch s' g' new) :
    g'.op.isInert = true ∧ s'.data = { s.data with discarded := true } ∧ new = [] := by
  cases hm with
  | @act a r d _ hguard hexec =>
    by_cases ha : a = .replaceControlPlane
    · subst ha
      cases hexec
      have hmay := hguard.1.1
      rw [hop] at hmay
      refine ⟨?_, rfl, rfl⟩
      cases hg : g.op with
      | cleanControlPlaneInMemoryData => rfl
      | _ => rw [hg] at hmay; cases hmay
    · have hsame := exec_discarded ha hexec
      simp [hbefore] at hsame
      simp [hsame] at hafter
  | finish | go | joined | jump => simp [hbefore] at hafter
  | announce | acquire | unlock | rlock | runlock => simp [Shared.setLock, hbefore] at hafter
  | join => simp [Shared.expect, hbefore] at hafter

/-- **A move keeps quiet goroutines quiet.** -/
theorem QuietAfter.move (hquiet : QuietAfter s gs) (hfit : AllFit s gs)
    (hknown : KnownSound s (viewKnown gs)) {ts ts' : List (Goroutine Op (Code Unit))}
    (hfenced : fenced ⟨⟨s, ts⟩, .run i ch, ⟨s', ts'⟩⟩ = true)
    (hsim : List.Forall₂ ((known.prod loopWatch).Sim anyAnswer) gs ts) (hg : gs[i]? = some g)
    (hm : (known.prod loopWatch).Moves exec s i g ch s' g' new) :
    QuietAfter s' (advance gs i g' new) := by
  intro hdiscarded
  have hmem := List.mem_of_getElem? hg
  obtain ⟨K, -, hgs⟩ := hknown.exists_allocated
  have hop := (hgs g hmem).1
  -- the others are quiet if they were
  have hframe : ∀ u ∈ gs, StaysQuiet s.data u → StaysQuiet s'.data u := by
    intro u hu hold
    rcases hold with hfinished | hinert | hpark
    · exact .inl hfinished
    · exact .inr (.inl hinert)
    · exact .inr (.inr (hpark.frame fun c hc => hfit.channelClosed_move hknown hm hu hc))
  have hrest : NoOffers s'.data → StaysQuiet s'.data g' → (∀ u ∈ new, StaysQuiet s'.data u) →
      (∀ u ∈ gs, StaysQuiet s.data u) →
      NoOffers s'.data ∧ ∀ u ∈ advance gs i g' new, StaysQuiet s'.data u := by
    intro hno hg' hnew hall
    refine ⟨hno, fun u hu => ?_⟩
    rcases mem_of_mem_advance hu with rfl | hsame | hu
    · exact hg'
    · exact hframe u hsame (hall u hsame)
    · exact hnew u hu
  by_cases hbefore : s.data.discarded = true
  · obtain ⟨hno, hall⟩ := hquiet hbefore
    rcases hall g hmem with hfinished | hinert | hpark
    · cases hm <;> simp_all
    · obtain ⟨hno', hinert', hnew⟩ := inert_move hinert hop hno hm
      exact hrest hno' (.inr (.inl hinert')) hnew hall
    · obtain ⟨hdata, hpark', rfl⟩ := hpark.move hno
        (fun c hc => hfit.lt_serviceCount hknown hmem hc) hm
      rw [hdata] at hrest ⊢
      exact hrest hno (.inr (.inr hpark')) (fun u hu => by cases hu) hall
  · -- the control plane is replaced now
    have hbefore : s.data.discarded = false := by simpa using hbefore
    obtain ⟨hinert', hdata, rfl⟩ := replace_of_move hbefore hdiscarded hop hm
    simp only [fenced, hbefore, hdiscarded, Bool.not_true, Bool.or_self, Bool.false_or,
      Bool.and_eq_true, decide_eq_true_eq, List.all_eq_true] at hfenced
    obtain ⟨hno, hall⟩ := hfenced
    refine hrest (by rw [hdata]; exact hno) (.inr (.inl hinert')) (fun u hu => by cases hu) ?_
    intro u hu
    obtain ⟨j, hj⟩ := List.mem_iff_getElem?.1 hu
    obtain ⟨t, ht, hut⟩ := exists_of_forall₂ hsim.flip hj
    exact staysQuiet_of_quiet (hfit u hu) (hgs u hu).1 hut (hall t (List.mem_of_getElem? ht))

end

/-- **After the replacement goroutines are quiet**, in every run under the condition. -/
theorem exists_quietAfter_of_run {tr : Trace} {s : System}
    (h : controlPlane.threads.machine.Run tr s) (hfenced : ∀ st ∈ tr, fenced st = true) :
    ∃ gs, List.Forall₂ ((known.prod loopWatch).Sim anyAnswer) gs s.threads ∧
      KnownSound s.shared (viewKnown gs) ∧ AllFit s.shared gs ∧ QuietAfter s.shared gs := by
  rw [controlPlane_eq] at h
  refine exists_known_of_run (G := fun st => fenced st = true)
    (J := fun s gs => AllFit s gs ∧ QuietAfter s gs) follows_loopWatch
    (fun _ => allocated_of_fresh) (fun _ => refs_of_isCall) ?_ ?_ ?_ h hfenced
  · rintro s ⟨⟨-, -, -, hs⟩, -, -⟩
    refine ⟨fun g hg => ?_, fun hd => ?_⟩
    · cases hg
    · simp [hs] at hd
  · rintro s ts gs op s' hG hop ⟨hfit, hquiet⟩
    refine ⟨hfit.call hop, fun hd => ⟨(hquiet hd).1, forall_mem_concat (hquiet hd).2 ?_⟩⟩
    simp only [fenced, hd, Bool.not_true, Bool.false_or] at hG
    exact .inr (.inl hG)
  · rintro s ts gs s' ts' i ch g g' new hG hsim hg hm hknown ⟨hfit, hquiet⟩
    exact ⟨(hfit.move hknown hg hm).1, hquiet.move hfit hknown hG hsim hg hm⟩

theorem exists_of_issues {s s' : System} {e : Threads.Event Op Choice}
    (h : issues ⟨s, e, s'⟩ = true) : ∃ i ch t a k, e = .run i ch ∧ s.threads[i]? = some t ∧
      t.code = .act a k ∧ a.isOutgoing = true := by
  cases e with
  | start op => cases h
  | run i ch =>
    obtain ⟨t, ht, hcode⟩ := (Option.any_eq_true _ _).1 h
    cases hc : t.code with
    | act a k =>
      rw [hc] at hcode
      exact ⟨i, ch, t, a, k, rfl, ht, hc, hcode⟩
    | _ =>
      rw [hc] at hcode
      cases hcode

/-- **Fencing.** In every run in which the control plane is replaced under the condition, it makes
no call to workers and data planes afterwards. -/
theorem not_issues_of_fenced {tr : Trace} {s : System} (h : controlPlane.threads.machine.Run tr s)
    (hfenced : ∀ st ∈ tr, fenced st = true) {st : Machine.Step System (Threads.Event Op Choice)}
    (hst : st ∈ tr) (hdiscarded : st.src.shared.data.discarded = true) : issues st = false := by
  by_contra hissues
  obtain ⟨i, ch, t, a, k, he, ht, hcode, hout⟩ := exists_of_issues (by simpa using hissues)
  obtain ⟨tr', hsuffix, hrun⟩ := h.src hst
  obtain ⟨gs, hsim, hknown, -, hquiet⟩ :=
    exists_quietAfter_of_run hrun fun st hst => hfenced st (hsuffix.subset hst)
  obtain ⟨g, hg, hfollows, hop, -, hphase⟩ := exists_of_forall₂ hsim ht
  have hmem := List.mem_of_getElem? hg
  obtain ⟨K, -, hgs⟩ := hknown.exists_allocated
  -- the goroutine does make its call
  have hnext := h.next_of_mem hst
  rw [he] at hnext
  obtain ⟨_, hstep⟩ := Threads.exists_step_of_next ht hnext
  obtain ⟨hready, r, d, -⟩ := Lang.step_of_act hcode hstep
  rw [hcode] at hfollows
  obtain ⟨⟨hmay, -⟩, hguard⟩ := (hfollows r trivial).1
  rcases (hquiet hdiscarded).2 g hmem with hfinished | hinert | hpark
  · rw [hphase, hready] at hfinished
    cases hfinished
  · rw [(hgs g hmem).1] at hmay
    rw [(Op.not_may_of_isInert hinert hmay).1] at hout
    cases hout
  · rcases hpark.label hguard with ⟨c, r', -, hl⟩ | ⟨c, b, r', -, hl⟩ | ⟨c, b, n, -, hl⟩
    · cases hl
      cases hout
    · cases hl
      cases hout
    · cases hl

/-- The control plane is replaced while the loop of a service waits, and the service is
deregistered. -/
def replaceIdle : List (Threads.Event Op Choice) := List.flatten
  [[.start (.registerService ⟨"f", "image", 1, 1⟩)], List.replicate 14 (.run 0 .ok),
    [.start .cleanControlPlaneInMemoryData], List.replicate 7 (.run 2 .ok),
    [.start (.deregisterService "f")], List.replicate 12 (.run 3 .ok),
      List.replicate 4 (.run 1 .ok)]

theorem not_issues_of_fenced_idle : ∃ tr s, controlPlane.threads.machine.Run tr s ∧
    (∀ st ∈ tr, fenced st = true) ∧ (∃ st ∈ tr, st.src.shared.data.discarded = true) ∧
    ∀ st ∈ tr, st.src.shared.data.discarded = true → issues st = false := by
  obtain ⟨tr, s, hrun, hfenced, hdiscarded⟩ := Machine.exists_run_of_play replaceIdle
    (P := fun tr _ => (∀ st ∈ tr, fenced st = true) ∧
      ∃ st ∈ tr, st.src.shared.data.discarded = true)
    init_newSystem (by decide +kernel)
  exact ⟨tr, s, hrun, hfenced, hdiscarded, fun st hst => not_issues_of_fenced hrun hfenced hst⟩

/-- A node and a service are registered, the autoscaler asks for a sandbox, and the goroutine that
creates it has chosen the node when the control plane is replaced. -/
def replaceDuringUpscale : List (Threads.Event Op Choice) := List.flatten
  [[.start (.registerNode ⟨"w", "10.0.0.2", 10010, 8, 1024⟩)], List.replicate 10 (.run 0 .ok),
    List.replicate 2 (.run 1 .ok),
    [.start (.registerService ⟨"f", "image", 1, 1⟩)], List.replicate 14 (.run 2 .ok),
    [.start (.onMetricsReceive "f")], List.replicate 7 (.run 4 .ok),
    [.run 5 (.desired 1), .run 5 .ok], List.replicate 7 (.run 3 .ok),
    List.replicate 4 (.run 6 .ok), [.run 6 (.node 0)], List.replicate 3 (.run 6 .ok),
    [.start .cleanControlPlaneInMemoryData], List.replicate 8 (.run 7 .ok),
    [.run 6 (.sandbox "sandbox" 8080)]]

/-- The call that drops the control plane has returned, and the old one creates a sandbox. -/
theorem exists_issues : ∃ tr s, controlPlane.threads.machine.Run tr s ∧
    ∃ st ∈ tr, st.src.shared.data.discarded = true ∧
      (∃ t ∈ st.src.threads, t.op = .cleanControlPlaneInMemoryData ∧ t.phase = .finished) ∧
      issues st = true :=
  Machine.exists_run_of_play replaceDuringUpscale
    init_newSystem (by decide +kernel)

end Dirigent.ControlPlane
