import Dirigent.ControlPlane.Allocation

/-!
# Tearing down a service

`DeregisterService` closes the channel of a service. The loop of the service is then to remove all
endpoints and to end. It does neither. A receive from a closed channel answers at once, so the
inner loop, which takes values until there is none, finds one every time:

* `isLoopRunning` is false only after a receive from the closed channel (`Fits.closed`);
* the inner loop ends only if the channel is open (`Fits.running`);
* so the branch for a closed channel is never reached, and no loop ever ends (`never_tornDown`).
-/

namespace Dirigent.ControlPlane

open Prog Threads Protocol

/-- The goroutine drains and deletes the endpoint `e`. -/
def Op.drains (e : ℕ) : Op → Bool
  | .drainAndDelete _ es => decide (e ∈ es)
  | _ => false

/-- The goroutine `i` runs the loop of the service `c`. -/
def RunsLoop (s : System) (i c : ℕ) : Prop :=
  ∃ t, s.threads[i]? = some t ∧ t.op.isLoopOf c = true

instance (s : System) (i c : ℕ) : Decidable (RunsLoop s i c) :=
  decidable_of_iff ((s.threads[i]?.any fun t => t.op.isLoopOf c) = true)
    (by simp [RunsLoop, Option.any_eq_true])

/-- What should be true in `s'` after the channel was closed in `s`: the loop of the service `c`,
goroutine `i`, has ended, no endpoint is left, and each was passed once to a goroutine that drains
and deletes it. -/
structure TornDown (s s' : System) (i c : ℕ) : Prop where
  exits : ∃ t, s'.threads[i]? = some t ∧ t.phase = .finished
  emptied : (s'.shared.data.services c).endpoints = []
  drained : ∀ e ∈ (s.shared.data.services c).endpoints,
    s'.threads.countP (fun t => t.op.drains e) = 1

/-! ## Where the loop is -/

inductive LoopPos
  | other
  /-- At the receive. -/
  | waiting (c : ℕ)
  /-- In the inner loop. -/
  | draining (c : ℕ) (isLoopRunning : Bool)
  /-- A value was received. -/
  | received (c : ℕ) (isLoopRunning : Bool)
  /-- After the inner loop. -/
  | scaling (c : ℕ) (isLoopRunning : Bool)

namespace LoopPos

def service : LoopPos → Option ℕ
  | .other => none
  | .waiting c | .draining c _ | .received c _ | .scaling c _ => some c

/-- The loop has found the channel closed. -/
def foundClosed : LoopPos → Bool
  | .draining _ b | .received _ b | .scaling _ b => !b
  | _ => false

end LoopPos

/-- The protocol of the loop. -/
def loopWatch : Protocol Lock Act Op Act.Ans LoopPos where
  start
    | .scalingControllerLoop c => .waiting c
    | .takeLastValue c _ b => .draining c b
    | _ => .other
  next
    | .waiting c, .act (.receive _) r => .received c r.2
    | .draining c _, .act (.tryReceive _) (some r) => .received c r.2
    | .draining c b, .act (.tryReceive _) none => .scaling c b
    | x, _ => x
  guard
    | .other, _ => True
    | .waiting c, l => ∃ r, l = .act (.receive c) r
    | .draining c _, l => ∃ r, l = .act (.tryReceive c) r
    | .received c b, l => ∃ n, l = .jump (.takeLastValue c n b)
    | .scaling c _, .jump op => op = .scalingControllerLoop c
    | .scaling _ _, .act (.receive _) _ => False
    | .scaling _ _, .act (.tryReceive _) _ => False
    | .scaling _ _, _ => True
  ended
    | .other => True
    | .scaling _ b => b = false
    | _ => False

variable {c : ℕ} {b : Bool}

theorem stays_doDownscaling (actualScale desiredCount : ℤ) :
    loopWatch.Stays anyAnswer (.scaling c b) (doDownscaling c actualScale desiredCount) :=
  (stays_perform fun _ => ⟨trivial, rfl⟩).bind fun _ => ⟨trivial, rfl⟩

theorem follows_scale (desired : ℤ) :
    loopWatch.Follows anyAnswer (scale c desired b) (fun _ => loopWatch.ended) (.scaling c b) := by
  refine Protocol.follows_perform.2 fun actual _ => ⟨trivial, ?_⟩
  have hlocked : ∀ {p : Code Unit}, loopWatch.Stays anyAnswer (.scaling c b) p →
      loopWatch.Stays anyAnswer (.scaling c b) (withLock (.endpointLock c) p) :=
    fun hp => stays_withLock ⟨trivial, rfl⟩ ⟨trivial, rfl⟩ hp
  cases b with
  | false =>
    refine Follows.mono (hlocked (stays_doDownscaling actual 0)) ?_
    rintro _ _ rfl
    rfl
  | true =>
    have hround : loopWatch.Stays anyAnswer (.scaling c true) (withLock (.endpointLock c) (do
        if actual < desired then
          doUpscaling c (desired - actual).toNat
        else
          let disabled : Bool ← call (.isDownScalingDisabled c actual desired)
          if !disabled && desired < actual then
            doDownscaling c actual desired)) := by
      refine hlocked ?_
      split
      · exact ⟨trivial, rfl⟩
      · refine Stays.bind (stays_perform fun _ => ⟨trivial, rfl⟩) fun disabled => ?_
        split
        · exact stays_doDownscaling actual desired
        · rfl
    exact hround.bind fun _ => rfl

theorem follows_loopWatch (op : Op) : loopWatch.Follows anyAnswer (body op)
    (fun _ => loopWatch.ended) (loopWatch.start op) := by
  cases op with
  | scalingControllerLoop c => exact fun r _ => ⟨⟨r, rfl⟩, r.1, rfl⟩
  | takeLastValue c desired b =>
    refine Protocol.follows_perform.2 fun value _ => ⟨⟨value, rfl⟩, ?_⟩
    cases value with
    | none => exact follows_scale desired
    | some v => exact ⟨v.1, rfl⟩
  | _ =>
    refine Follows.mono (follows_of_closed (S := (· = .other)) ?_ (fun _ _ => trivial) rfl) ?_
    · rintro x l rfl
      exact ⟨trivial, rfl⟩
    · rintro _ x rfl
      trivial

/-! ## The loop never ends -/

/-- What holds of a goroutine of the control plane, as the protocol sees it. -/
structure Fits (s : State) (op : Op) (phase : Phase) (x : LoopPos) : Prop where
  service : ∀ c, op.isLoopOf c = true ↔ x.service = some c
  closed : ∀ c, x.service = some c → x.foundClosed = true → (s.services c).channelClosed = true
  running : ∀ c, x ≠ .scaling c false
  unended : phase = .finished → x.service = none

variable {op : Op} {x : LoopPos} {tr : Trace} {st : Machine.Step System (Threads.Event Op Choice)}

theorem service_start {c : ℕ} :
    op.isLoopOf c = true ↔ (loopWatch.start op).service = some c := by
  cases op with
  | scalingControllerLoop c' | takeLastValue c' n b =>
    simp [Op.isLoopOf, loopWatch, LoopPos.service]
  | _ => exact iff_of_false (by intro h; cases h) (by intro h; cases h)

theorem fits_start {s : State} (hop : ∀ c n b, op ≠ .takeLastValue c n b) :
    Fits s op .ready (loopWatch.start op) where
  service c := service_start
  closed c _ hclosed := by
    cases op with
    | takeLastValue c n b => exact absurd rfl (hop c n b)
    | _ => cases hclosed
  running c := by cases op <;> exact fun h => by cases h
  unended h := by cases h

/-- A goroutine whose loop's channel cannot be opened again. -/
theorem Fits.frame {s s' : State} {phase : Phase} (h : Fits s op phase x)
    (hclosed : ∀ c, x.service = some c → (s.services c).channelClosed = true →
      (s'.services c).channelClosed = true) : Fits s' op phase x :=
  ⟨h.service, fun c hc hf => hclosed c hc (h.closed c hc hf), h.running, h.unended⟩

/-- What an action of the loop answers: `false` only from a closed channel, and nothing only from an
open one. -/
theorem exec_receive {s s' : State} {c : ℕ} {ch : Choice} {r : ℤ × Bool}
    (h : exec (.receive c) s ch = some (r, s')) (hr : r.2 = false) :
    (s.services c).channelClosed = true := by
  simp only [exec] at h
  split at h
  · next hclosed => exact hclosed
  · obtain ⟨n, -, hn⟩ := Option.map_eq_some_iff.1 h
    cases hn
    cases hr

theorem exec_tryReceive {s s' : State} {c : ℕ} {ch : Choice} {r : Option (ℤ × Bool)}
    (h : exec (.tryReceive c) s ch = some (r, s')) :
    (r = none → (s.services c).channelClosed = false) ∧
      ∀ v, r = some v → v.2 = false → (s.services c).channelClosed = true := by
  simp only [exec] at h
  split at h
  · next hclosed =>
    cases h
    exact ⟨(by intro h; cases h), fun _ _ _ => hclosed⟩
  · next hopen =>
    refine ⟨fun _ => by simpa using hopen, fun v hv hfalse => ?_⟩
    split at h
    · cases h
      cases hv
      cases hfalse
    · cases h
      cases hv

theorem loopWatch_next_sync (o : LockOp) (l : Lock) :
    loopWatch.next x (.sync o l) = x := by
  cases x <;> rfl

theorem loopWatch_next_go (cs : List Op) : loopWatch.next x (.go cs) = x := by
  cases x <;> rfl

theorem loopWatch_next_join (cs : List Op) : loopWatch.next x (.join cs) = x := by
  cases x <;> rfl

theorem Fits.act {s s' : State} {a : Act} {r : a.Ans} {ch : Choice} (h : Fits s op .ready x)
    (hguard : loopWatch.guard x (.act a r)) (he : exec a s ch = some (r, s'))
    (hclosed : ∀ c, x.service = some c → (s.services c).channelClosed = true →
      (s'.services c).channelClosed = true) :
    Fits s' op .ready (loopWatch.next x (.act a r)) ∧
      (loopWatch.next x (.act a r)).service = x.service := by
  have h' := h.frame hclosed
  cases x with
  | other | scaling c b => exact ⟨h', rfl⟩
  | received c b =>
    obtain ⟨n, hn⟩ := hguard
    cases hn
  | waiting c =>
    obtain ⟨r', hr'⟩ := hguard
    cases hr'
    refine ⟨⟨h'.service, fun c' hc' hfound => ?_, fun _ hx => ?_, fun hp => ?_⟩, rfl⟩
    · cases hc'
      have hfalse : r'.2 = false := by simpa [LoopPos.foundClosed, loopWatch] using hfound
      exact hclosed c rfl (exec_receive he hfalse)
    · cases hx
    · cases hp
  | draining c b =>
    obtain ⟨r', hr'⟩ := hguard
    cases hr'
    obtain ⟨hopen, hfound'⟩ := exec_tryReceive he
    cases r' with
    | none =>
      -- the channel is open, so the loop is running
      have hb : b ≠ false := by
        rintro rfl
        have hc := h.closed c rfl rfl
        rw [hopen rfl] at hc
        cases hc
      refine ⟨⟨h'.service, fun c' hc' hfound => ?_, fun c' hx => ?_, fun hp => ?_⟩, rfl⟩
      · simp [LoopPos.foundClosed, loopWatch, hb] at hfound
      · cases hx
        exact hb rfl
      · cases hp
    | some v =>
      refine ⟨⟨h'.service, fun c' hc' hfound => ?_, fun _ hx => ?_, fun hp => ?_⟩, rfl⟩
      · cases hc'
        have hfalse : v.2 = false := by simpa [LoopPos.foundClosed, loopWatch] using hfound
        exact hclosed c rfl (hfound' v rfl hfalse)
      · cases hx
      · cases hp

theorem Fits.jump {s : State} {op d : Op} (h : Fits s op .ready x)
    (hguard : loopWatch.guard x (.jump d)) (hjump : op.mayJump d = true) :
    Fits s d .ready (loopWatch.start d) ∧ (loopWatch.start d).service = x.service := by
  cases x with
  | waiting c | draining c b =>
    obtain ⟨r, hr⟩ := hguard
    cases hr
  | received c b =>
    obtain ⟨n, hn⟩ := hguard
    cases hn
    refine ⟨⟨fun c' => service_start, fun c' hc' hfound => ?_, fun _ hx => ?_, fun hp => ?_⟩, rfl⟩
    · exact h.closed c' hc' hfound
    · cases hx
    · cases hp
  | scaling c b =>
    obtain rfl : d = .scalingControllerLoop c := hguard
    exact ⟨fits_start (fun _ _ _ h => by cases h), rfl⟩
  | other =>
    -- only the autoscaler jumps from elsewhere, and not into the loop
    have hother : ∀ c, op.isLoopOf c = false := by
      intro c
      by_contra hc
      have hservice := (h.service c).1 (by simpa using hc)
      cases hservice
    obtain ⟨c, rfl⟩ : ∃ c, d = .scalingLoopRound c := by
      cases op with
      | scalingControllerLoop c | takeLastValue c n b => simpa [Op.isLoopOf] using hother c
      | scalingLoop c | scalingLoopRound c =>
        cases d with
        | scalingLoopRound c' => exact ⟨c', rfl⟩
        | _ => cases hjump
      | _ => cases hjump
    refine ⟨⟨fun c' => service_start, fun c' hc' => ?_, fun _ hx => ?_, fun hp => ?_⟩, rfl⟩
    · cases hc'
    · cases hx
    · cases hp

theorem Fits.finish {s : State} (h : Fits s op .ready x) (hended : loopWatch.ended x) :
    Fits s op .finished x := by
  refine ⟨h.service, h.closed, h.running, fun _ => ?_⟩
  cases x with
  | other => rfl
  | scaling c b =>
    obtain rfl : b = false := hended
    exact absurd rfl (h.running c)
  | waiting c | draining c b | received c b => cases hended

variable {s s' : Shared Lock State} {gs new : List (Goroutine Op ((Op × List Ref) × LoopPos))}
  {g g' : Goroutine Op ((Op × List Ref) × LoopPos)} {i : ℕ} {ch : Choice}

/-- Every goroutine fits. -/
def AllFit (s : Shared Lock State) (gs : List (Goroutine Op ((Op × List Ref) × LoopPos))) : Prop :=
  ∀ g ∈ gs, Fits s.data g.op g.phase g.code.2

theorem AllFit.lt_serviceCount (hfit : AllFit s gs) (hknown : KnownSound s (viewKnown gs))
    (hg : g ∈ gs) {c : ℕ} (hc : g.code.2.service = some c) : c < s.data.serviceCount := by
  obtain ⟨K, hK, hgs⟩ := hknown.exists_allocated
  obtain ⟨-, -, hrefs⟩ := hgs g hg
  have hloop := ((hfit g hg).service c).2 hc
  refine hK.service c (hrefs _ ?_)
  cases hop : g.op with
  | scalingControllerLoop c' | takeLastValue c' n b =>
    rw [hop] at hloop
    obtain rfl : c' = c := by simpa [Op.isLoopOf] using hloop
    exact List.mem_singleton_self _
  | _ =>
    rw [hop] at hloop
    cases hloop

theorem AllFit.channelClosed_move (hfit : AllFit s gs) (hknown : KnownSound s (viewKnown gs))
    (hm : (known.prod loopWatch).Moves exec s i g ch s' g' new)
    {u : Goroutine Op ((Op × List Ref) × LoopPos)} (hu : u ∈ gs) {c : ℕ}
    (hc : u.code.2.service = some c) (hclosed : (s.data.services c).channelClosed = true) :
    (s'.data.services c).channelClosed = true := by
  cases hm with
  | act _ _ hexec => exact exec_channelClosed (hfit.lt_serviceCount hknown hu hc) hexec hclosed
  | finish => rwa [Shared.report_data]
  | _ => exact hclosed

/-- **A move keeps the fit**, and a loop stays the loop of its service. -/
theorem AllFit.move (hfit : AllFit s gs) (hknown : KnownSound s (viewKnown gs))
    (hg : gs[i]? = some g) (hm : (known.prod loopWatch).Moves exec s i g ch s' g' new) :
    AllFit s' (advance gs i g' new) ∧ g'.code.2.service = g.code.2.service := by
  have hmem := List.mem_of_getElem? hg
  have hself := hfit g hmem
  -- the channels that were closed still are
  have hclosed : ∀ u ∈ gs, ∀ c, u.code.2.service = some c →
      (s.data.services c).channelClosed = true → (s'.data.services c).channelClosed = true :=
    fun u hu c hc hold => hfit.channelClosed_move hknown hm hu hc hold
  have hrest : Fits s'.data g'.op g'.phase g'.code.2 →
    (∀ u ∈ new, Fits s'.data u.op u.phase u.code.2) →
      AllFit s' (advance gs i g' new) := by
    intro hg' hnew u hu
    rcases mem_of_mem_advance hu with rfl | hsame | hu
    · exact hg'
    · have hu := hsame
      exact (hfit u hu).frame (hclosed u hu)
    · exact hnew u hu
  have hnone : ∀ u ∈ ([] : List (Goroutine Op ((Op × List Ref) × LoopPos))),
      Fits s'.data u.op u.phase u.code.2 := fun u hu => by cases hu
  have hstarted : ∀ (cs : List Op) (parent : Option ℕ), (∀ c ∈ cs, g.code.1.1.mayStart c = true ∧
      c.refs ⊆ g.code.1.2) → ∀ u ∈ cs.map ((known.prod loopWatch).goroutine parent),
        Fits s'.data u.op u.phase u.code.2 := by
    intro cs parent hcs u hu
    obtain ⟨op, hop, rfl⟩ := List.mem_map.1 hu
    refine fits_start ?_
    rintro c n b rfl
    cases (hcs _ hop).1
  have hkeep := hself.frame (hclosed g hmem)
  -- the next position, where only an action or a jump makes another one of it
  have hstays : ∀ {x : LoopPos} (phase : Phase), x = g.code.2 → phase ≠ .finished →
      Fits s'.data g.op phase x ∧ x.service = g.code.2.service := by
    rintro _ phase rfl hphase
    exact ⟨⟨hkeep.service, hkeep.closed, hkeep.running, fun h => absurd h hphase⟩, rfl⟩
  cases hm with
  | @act a r d hp hguard hexec =>
    obtain ⟨hfits, hservice⟩ := (hp ▸ hself).act hguard.2 hexec (hclosed g hmem)
    exact ⟨hrest (by rwa [hp]) hnone, hservice⟩
  | jump hp hguard =>
    obtain ⟨K, -, hgs⟩ := hknown.exists_allocated
    have hjump := hguard.1.1
    rw [(hgs g hmem).1] at hjump
    obtain ⟨hfits, hservice⟩ := (hp ▸ hself).jump hguard.2 hjump
    exact ⟨hrest (by rwa [hp]) hnone, hservice⟩
  | finish hp hended =>
    refine ⟨hrest ?_ hnone, rfl⟩
    have hfits := (hp ▸ hself).finish hended.2
    exact hfits.frame (hclosed g hmem)
  | announce hp _ _ =>
    obtain ⟨hfits, hservice⟩ := hstays .announced rfl (by simp)
    exact ⟨hrest hfits hnone, hservice⟩
  | acquire hp _ _ =>
    obtain ⟨hfits, hservice⟩ := hstays .ready (loopWatch_next_sync _ _) (by simp)
    exact ⟨hrest hfits hnone, hservice⟩
  | unlock hp _ | rlock hp _ _ | runlock hp _ =>
    obtain ⟨hfits, hservice⟩ := hstays g.phase (loopWatch_next_sync _ _) (by simp [hp])
    exact ⟨hrest hfits hnone, hservice⟩
  | go hp hguard =>
    obtain ⟨hfits, hservice⟩ := hstays g.phase (loopWatch_next_go _) (by simp [hp])
    exact ⟨hrest hfits (hstarted _ none hguard.1), hservice⟩
  | join hp hguard =>
    obtain ⟨hfits, hservice⟩ := hstays .waiting rfl (by simp)
    exact ⟨hrest hfits (hstarted _ (some i) hguard.1), hservice⟩
  | joined hp hguard _ =>
    obtain ⟨hfits, hservice⟩ := hstays .ready (loopWatch_next_join _) (by simp)
    exact ⟨hrest hfits hnone, hservice⟩

theorem AllFit.call (hfit : AllFit s gs) (hop : op.isCall = true) :
    AllFit s (gs ++ [(known.prod loopWatch).goroutine none op]) := by
  refine forall_mem_concat hfit (fits_start ?_)
  rintro c n b rfl
  cases hop

theorem exists_allFit_of_run {s : System} (h : controlPlane.threads.machine.Run tr s) :
    ∃ gs, List.Forall₂ ((known.prod loopWatch).Sim anyAnswer) gs s.threads ∧
      KnownSound s.shared (viewKnown gs) ∧ AllFit s.shared gs := by
  rw [controlPlane_eq] at h
  refine exists_known_of_run (G := fun _ => True) follows_loopWatch (fun _ => allocated_of_fresh)
    (fun _ => refs_of_isCall) ?_ ?_ ?_ h fun _ _ => trivial
  · intro s _ g hg
    cases hg
  · exact fun s ts gs op s' _ hop hfit => hfit.call hop
  · intro s ts gs s' ts' i ch g g' new _ _ hg hm hknown hfit
    exact (hfit.move hknown hg hm).1

theorem loop_unfinished {s : System} (h : controlPlane.threads.machine.Run tr s) {i c : ℕ}
    {t : Goroutine Op (Code Unit)} (ht : s.threads[i]? = some t) (hloop : t.op.isLoopOf c = true) :
    t.phase ≠ .finished := by
  obtain ⟨gs, hsim, -, hfit⟩ := exists_allFit_of_run h
  obtain ⟨g, hg, -, hop, -, hphase⟩ := exists_of_forall₂ hsim ht
  have hg := hfit g (List.mem_of_getElem? hg)
  intro hfinished
  have hservice := (hg.service c).1 (hop ▸ hloop)
  rw [hg.unended (hphase.trans hfinished)] at hservice
  cases hservice

theorem RunsLoop.step {s s' : System} {e : Threads.Event Op Choice} {i c : ℕ}
    (hloop : RunsLoop s i c) (h : controlPlane.threads.machine.Run tr s)
    (hnext : controlPlane.threads.machine.next s e = some s') : RunsLoop s' i c := by
  obtain ⟨t, ht, hloop⟩ := hloop
  rcases Threads.next_cases hnext with ⟨op, u, rfl, -, rfl⟩ |
    ⟨j, ch, u, d, u', new, rfl, hu, hstep, rfl⟩
  · exact ⟨t, by rw [List.getElem?_append_left (List.getElem?_eq_some_iff.1 ht).1, ht], hloop⟩
  · rcases eq_or_ne i j with rfl | hij
    · -- the loop itself moves
      obtain rfl := Option.some.inj (ht.symm.trans hu)
      obtain ⟨gs, hsim, hknown, hfit⟩ := exists_allFit_of_run h
      obtain ⟨g, hg, hgt⟩ := exists_of_forall₂ hsim ht
      have hfollows : ∀ op, (known.prod loopWatch).Follows anyAnswer (body op)
          (fun _ => (known.prod loopWatch).ended) ((known.prod loopWatch).start op) := fun op =>
        Follows.mono ((knows_body op).prod (follows_loopWatch op)) fun _ _ hend => hend
      obtain ⟨g', gnew, hm, hg', -⟩ := hgt.exists_moves (P := controlPlane) hfollows hstep
        fun _ _ _ _ _ _ => trivial
      obtain ⟨hfit', hservice⟩ := hfit.move hknown hg hm
      refine ⟨u', getElem?_advance_self u' new ht, ?_⟩
      have hold := ((hfit g (List.mem_of_getElem? hg)).service c).1 (hgt.2.1 ▸ hloop)
      have hnew := hfit' g' (mem_advance_self g' gnew hg)
      rw [← hg'.2.1]
      exact (hnew.service c).2 (hservice.trans hold)
    · exact ⟨t, getElem?_advance_of_ne u' new ht hij, hloop⟩

theorem RunsLoop.of_mem {s : System} {i c : ℕ} (hloop : RunsLoop st.src i c)
    (h : controlPlane.threads.machine.Run tr s) (hst : st ∈ tr) : RunsLoop s i c := by
  refine h.invariant (G := fun _ => True)
    (I := fun tr s => ∀ st ∈ tr, RunsLoop st.src i c → RunsLoop s i c) ?_ ?_ (fun _ _ => trivial)
    st hst hloop
  · intro s _ st hst
    cases hst
  · intro tr s e s' hrun ih _ hnext st hst hloop
    rcases List.mem_cons.1 hst with rfl | hst
    · exact hloop.step hrun hnext
    · exact (ih st hst hloop).step hrun hnext

theorem RunsLoop.not_finished {s : System} {i c : ℕ} (hloop : RunsLoop st.src i c)
    (h : controlPlane.threads.machine.Run tr s) (hst : st ∈ tr) :
    ¬ ∃ t, s.threads[i]? = some t ∧ t.phase = .finished := by
  rintro ⟨t, ht, hfinished⟩
  obtain ⟨t', ht', hloop'⟩ := hloop.of_mem h hst
  obtain rfl := Option.some.inj (ht.symm.trans ht')
  exact loop_unfinished h ht hloop' hfinished

/-- **No service is ever torn down.** Wherever there is a loop of the service, at no later point of
the run has it ended, whatever was done to the channel in between. -/
theorem never_tornDown {tr : Trace} {s : System} (h : controlPlane.threads.machine.Run tr s)
    {st : Machine.Step System (Threads.Event Op Choice)} (hst : st ∈ tr) {i c : ℕ}
    (hloop : RunsLoop st.src i c) : ¬ TornDown st.src s i c :=
  fun hdown => hloop.not_finished h hst hdown.exits

/-- A service is registered and deregistered, and its loop goes round twice. -/
def registerAndDeregister : List (Threads.Event Op Choice) := List.flatten
  [[.start (.registerService ⟨"f", "image", 1, 1⟩)], List.replicate 14 (.run 0 .ok),
    [.start (.deregisterService "f")], List.replicate 12 (.run 2 .ok),
    List.replicate 6 (.run 1 .ok)]

/-- The channel of the service `c` is closed, and goroutine `i` is its loop. -/
def ClosedUnder (s : System) (i c : ℕ) : Prop :=
  (s.shared.data.services c).channelClosed = true ∧ RunsLoop s i c

instance (s : System) (i c : ℕ) : Decidable (ClosedUnder s i c) :=
  inferInstanceAs (Decidable (_ ∧ _))

theorem exists_closedUnder : ∃ tr s, controlPlane.threads.machine.Run tr s ∧
    ∃ st ∈ tr, ClosedUnder st.src 1 0 :=
  Machine.exists_run_of_play registerAndDeregister
    init_newSystem (by decide +kernel)

theorem never_tornDown_of_close : ∃ tr s, controlPlane.threads.machine.Run tr s ∧
    ∃ st ∈ tr, (st.src.shared.data.services 0).channelClosed = true ∧ ¬ TornDown st.src s 1 0 := by
  obtain ⟨tr, s, hrun, st, hst, hclosed, hloop⟩ := exists_closedUnder
  exact ⟨tr, s, hrun, st, hst, hclosed, never_tornDown hrun hst hloop⟩

/-- A channel is closed, and however the run goes on, its loop does not end. -/
theorem exists_not_tornDown : ∃ tr s, controlPlane.threads.machine.Run tr s ∧
    ∃ st ∈ tr, ClosedUnder st.src 1 0 ∧ ∀ tr' s', controlPlane.threads.machine.Run (tr' ++ tr) s' →
      ¬ TornDown st.src s' 1 0 := by
  obtain ⟨tr, s, hrun, st, hst, hclosed, hloop⟩ := exists_closedUnder
  refine ⟨tr, s, hrun, st, hst, ⟨hclosed, hloop⟩, fun tr' s' hrun' hdown => ?_⟩
  exact hloop.not_finished hrun' (List.mem_append_right tr' hst) hdown.exits

end Dirigent.ControlPlane
