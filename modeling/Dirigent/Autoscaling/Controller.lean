import Dirigent.Threads

/-!
# The life cycle of an autoscaler

A `PFStateController` has a flag `AutoscalingRunning` and a channel `StopCh`. `Start` sets the flag,
makes the channel and starts `ScalingLoop`; `Stop` sends on the channel; the loop, when it is told
to stop or when the desired scale is `0`, clears the flag, closes the channel and forgets it. There
is no lock, so any two statements of different goroutines may be interleaved.

A channel lives on after the field has changed: a `Stop` that waits and the `select` of a loop keep
the channel they have evaluated. So the channels are numbered in the order they are made, and the
field holds a number.

* `step` — the statements of `Start`, `Stop` and `ScalingLoop`, with `scalingCycle` and
  `stopAutoscalingLoop` in line.
* `step_cases` — a step is quiet, or it is one of the six that the life cycle consists of.
* **`lifeCycle`** — there is one loop at a time, the flag tells whether there is one, and each
  channel is closed once, unless a `Start` comes in between clearing the flag and the end of the
  loop.
* `exists_close_nil` — in between, a second loop is started and in the end `nil` is closed.
-/

namespace Dirigent.Autoscaling

open Threads

/-- A channel with room for one element. -/
structure StopChannel where
  full : Bool := false
  closed : Bool := false
  deriving DecidableEq, Repr

inductive Panic
  | closeOfNil | closeOfClosed | sendOnClosed
  deriving DecidableEq, Repr

/-- The fields of `PFStateController` that `Start`, `Stop` and the loop share, with the channels
made so far. A panic ends the program, with the goroutine where it is. -/
structure Controller where
  autoscalingRunning : Bool := false
  stopCh : Option ℕ := none
  channels : List StopChannel := []
  panicked : Option Panic := none
  deriving DecidableEq, Repr

/-- Where a goroutine is: the statement it makes next. -/
inductive Point
  /-- `Start`: the swap, `as.StopCh = make(chan struct{}, 1)`, `go as.ScalingLoop()`. -/
  | swap | make | go
  | started (success : Bool)
  /-- `Stop`: the load, the evaluation of `as.StopCh`, the send. -/
  | load | evalSend | send (ch : Option ℕ)
  /-- `scalingCycle`: `KnativeScaling`, and the send on `DesiredStateChannel`. -/
  | compute (isScaleFromZero : Bool) | deliver (desiredScale : ℤ)
  /-- The `select` of `ScalingLoop`, which first evaluates `as.StopCh`. -/
  | evalSelect | select (ch : Option ℕ)
  /-- `stopAutoscalingLoop`: the store, `close(as.StopCh)`, `as.StopCh = nil`. -/
  | clear | close | drop
  | returned
  deriving DecidableEq, Repr

/-- What a statement leaves open. -/
inductive Choice
  | none
  /-- What `KnativeScaling` computes. -/
  | desired (n : ℤ)
  /-- The scaling loop of the control plane takes the desired scale. -/
  | taken
  /-- The control plane has closed `DesiredStateChannel`. -/
  | closed
  | tick | stop
  deriving DecidableEq, Repr

inductive Method
  | start | stop
  deriving DecidableEq, Repr

/-- The statement that goroutine `t` makes on `s`, if it can. -/
def step (s : Controller) : Point → Choice → Option (Controller × Point × List Point)
  | .swap, _ =>
    if s.autoscalingRunning then some (s, .started false, [])
    else some ({ s with autoscalingRunning := true }, .make, [])
  | .make, _ =>
    some ({ s with stopCh := some s.channels.length, channels := s.channels ++ [{}] }, .go, [])
  | .go, _ => some (s, .started true, [.compute true])
  | .load, _ => some (s, if s.autoscalingRunning then .evalSend else .returned, [])
  | .evalSend, _ => some (s, .send s.stopCh, [])
  -- a send on `nil`, or on a channel that is full, waits
  | .send none, _ => none
  | .send (some ch), _ =>
    match s.channels[ch]? with
    | some ⟨_, true⟩ => some ({ s with panicked := some .sendOnClosed }, .send (some ch), [])
    | some ⟨false, false⟩ =>
      some ({ s with channels := s.channels.set ch ⟨true, false⟩ }, .returned, [])
    | _ => none
  | .compute isScaleFromZero, .desired n =>
    some (s, .deliver (if isScaleFromZero then 1 else n), [])
  | .deliver desiredScale, .taken =>
    some (s, if desiredScale = 0 then .clear else .evalSelect, [])
  | .deliver desiredScale, .closed =>
    some ({ s with panicked := some .sendOnClosed }, .deliver desiredScale, [])
  | .evalSelect, _ => some (s, .select s.stopCh, [])
  | .select _, .tick => some (s, .compute false, [])
  | .select (some ch), .stop =>
    match s.channels[ch]? with
    | some ⟨true, closed⟩ =>
      some ({ s with channels := s.channels.set ch ⟨false, closed⟩ }, .clear, [])
    | some ⟨false, true⟩ => some (s, .clear, [])
    | _ => none
  | .clear, _ => some ({ s with autoscalingRunning := false }, .close, [])
  | .close, _ =>
    match s.stopCh with
    | none => some ({ s with panicked := some .closeOfNil }, .close, [])
    | some ch =>
      match s.channels[ch]? with
      | some ⟨_, true⟩ => some ({ s with panicked := some .closeOfClosed }, .close, [])
      | some ⟨full, false⟩ =>
        some ({ s with channels := s.channels.set ch ⟨full, true⟩ }, .drop, [])
      | none => none
  | .drop, _ => some ({ s with stopCh := none }, .returned, [])
  | _, _ => none

/-- All interleavings of any number of calls of `Start` and `Stop` on one controller. -/
def controller : Threads Controller Point Method Choice where
  init s := s = {}
  call
    | .start => some .swap
    | .stop => some .load
  step s _ t c := if s.panicked.isSome then none else step s t c

/-! ## The property -/

/-- `Start` has won and is going to start its loop. -/
def Point.isStarting : Point → Bool
  | .make | .go => true
  | _ => false

/-- A loop that has not cleared the flag. -/
def Point.isLooping : Point → Bool
  | .compute _ | .deliver _ | .evalSelect | .select _ | .clear => true
  | _ => false

/-- A loop that has cleared the flag and has not returned. -/
def Point.isExiting : Point → Bool
  | .close | .drop => true
  | _ => false

/-- A `ScalingLoop` that has not returned. -/
def Point.isLoop (t : Point) : Bool := t.isLooping || t.isExiting

/-- The flag belongs to a loop from the swap on that leads to it, until the loop clears it. -/
def Point.isRunning (t : Point) : Bool := t.isStarting || t.isLooping

structure LifeCycle (s : Pool Controller Point) : Prop where
  one_loop : s.threads.countP Point.isLoop ≤ 1
  flag : s.shared.autoscalingRunning = true ↔ ∃ t ∈ s.threads, t.isRunning = true
  close_nil : s.shared.panicked ≠ some .closeOfNil
  close_closed : s.shared.panicked ≠ some .closeOfClosed

abbrev Interleaving := Machine.Step (Pool Controller Point) (Threads.Event Method Choice)

/-- The goroutine that moves in a step, where it is before the step. -/
def mover (st : Interleaving) : Option Point :=
  match st.event with
  | .start _ => none
  | .run i _ => st.src.threads[i]?

/-- A `Start` wins while a loop that has cleared the flag has not returned. -/
def RestartsEarly (st : Interleaving) : Prop :=
  mover st = some .swap ∧ st.src.shared.autoscalingRunning = false ∧
    ∃ t ∈ st.src.threads, t.isExiting = true

instance : DecidablePred RestartsEarly := fun _ => inferInstanceAs (Decidable (_ ∧ _ ∧ _))

/-! ## What a step does -/

/-- The field holds a channel that is open. -/
def Controller.StopChOpen (s : Controller) : Prop :=
  ∃ ch full, s.stopCh = some ch ∧ s.channels[ch]? = some ⟨full, false⟩

/-- Only a goroutine that has its channel in the field is here. -/
def Point.ownsStopCh : Point → Bool
  | .go | .close => true
  | t => t.isLooping

/-- A step that is not part of the life cycle. -/
structure Quiet (s s' : Controller) (t t' : Point) : Prop where
  flag : s'.autoscalingRunning = s.autoscalingRunning
  stopChOpen : s.StopChOpen → s'.StopChOpen
  panicked : s'.panicked = s.panicked ∨ s'.panicked = some .sendOnClosed
  running : t'.isRunning = t.isRunning
  exiting : t'.isExiting = t.isExiting
  ownsStopCh : t'.ownsStopCh = t.ownsStopCh

variable {s s' : Controller} {t t' : Point} {new : List Point} {c : Choice}

theorem Quiet.of_same (hrunning : t'.isRunning = t.isRunning)
    (hexiting : t'.isExiting = t.isExiting)
    (howns : t'.ownsStopCh = t.ownsStopCh) : Quiet s s t t' :=
  ⟨rfl, id, .inl rfl, hrunning, hexiting, howns⟩

theorem stopChOpen_set {ch : ℕ} {full full' closed : Bool}
    (hch : s.channels[ch]? = some ⟨full, closed⟩) (h : s.StopChOpen) :
    ({ s with channels := s.channels.set ch ⟨full', closed⟩ } : Controller).StopChOpen := by
  obtain ⟨ch', f, hfield, hopen⟩ := h
  by_cases heq : ch = ch'
  · subst heq
    have hsame : (⟨full, closed⟩ : StopChannel) = ⟨f, false⟩ :=
      Option.some.inj (hch.symm.trans hopen)
    obtain ⟨-, hclosed⟩ := StopChannel.mk.inj hsame
    have hlt := (List.getElem?_eq_some_iff.1 hch).1
    exact ⟨ch, full', hfield, by simp [hclosed, hlt]⟩
  · exact ⟨ch', f, hfield, by simpa [List.getElem?_set_ne heq] using hopen⟩

/-- **What a step can do.** It is quiet, or `Start` wins, makes its channel and starts the loop, or
the loop clears the flag, closes the channel of the field and forgets it. -/
theorem step_cases (h : step s t c = some (s', t', new)) :
    (Quiet s s' t t' ∧ new = []) ∨
    (t = .swap ∧ t' = .make ∧ new = [] ∧ s.autoscalingRunning = false ∧
      s' = { s with autoscalingRunning := true }) ∨
    (t = .make ∧ t' = .go ∧ new = [] ∧ s'.StopChOpen ∧
      s'.autoscalingRunning = s.autoscalingRunning ∧ s'.panicked = s.panicked) ∨
    (t = .go ∧ t' = .started true ∧ new = [.compute true] ∧ s' = s) ∨
    (t = .clear ∧ t' = .close ∧ new = [] ∧ s' = { s with autoscalingRunning := false }) ∨
    (t = .close ∧ t' = .drop ∧ new = [] ∧ s'.autoscalingRunning = s.autoscalingRunning ∧
      s'.panicked = s.panicked) ∨
    (t = .close ∧ ¬ s.StopChOpen) ∨
    (t = .drop ∧ t' = .returned ∧ new = [] ∧ s' = { s with stopCh := none }) := by
  cases t with
  | swap =>
    simp only [step] at h
    split_ifs at h with hflag
    · cases h
      exact .inl ⟨.of_same rfl rfl rfl, rfl⟩
    · cases h
      exact .inr (.inl ⟨rfl, rfl, rfl, by simpa using hflag, rfl⟩)
  | make =>
    cases h
    refine .inr (.inr (.inl ⟨rfl, rfl, rfl, ⟨s.channels.length, false, rfl, ?_⟩, rfl, rfl⟩))
    simp
  | go =>
    cases h
    exact .inr (.inr (.inr (.inl ⟨rfl, rfl, rfl, rfl⟩)))
  | started success | returned => cases h
  | load =>
    cases h
    refine .inl ⟨?_, rfl⟩
    split
    · exact .of_same rfl rfl rfl
    · exact .of_same rfl rfl rfl
  | evalSend | evalSelect =>
    cases h
    exact .inl ⟨.of_same rfl rfl rfl, rfl⟩
  | send ch =>
    cases ch with
    | none => cases h
    | some ch =>
      simp only [step] at h
      split at h
      · cases h
        exact .inl ⟨⟨rfl, id, .inr rfl, rfl, rfl, rfl⟩, rfl⟩
      · next hch =>
        cases h
        exact .inl ⟨⟨rfl, stopChOpen_set hch, .inl rfl, rfl, rfl, rfl⟩, rfl⟩
      · cases h
  | compute isScaleFromZero =>
    cases c with
    | desired n =>
      cases h
      exact .inl ⟨.of_same rfl rfl rfl, rfl⟩
    | _ => cases h
  | deliver desiredScale =>
    cases c with
    | taken =>
      cases h
      refine .inl ⟨?_, rfl⟩
      split
      · exact .of_same rfl rfl rfl
      · exact .of_same rfl rfl rfl
    | closed =>
      cases h
      exact .inl ⟨⟨rfl, id, .inr rfl, rfl, rfl, rfl⟩, rfl⟩
    | _ => cases h
  | select ch =>
    cases c with
    | tick =>
      cases h
      exact .inl ⟨.of_same rfl rfl rfl, rfl⟩
    | stop =>
      cases ch with
      | none => cases h
      | some ch =>
        simp only [step] at h
        split at h
        · next hch =>
          cases h
          exact .inl ⟨⟨rfl, stopChOpen_set hch, .inl rfl, rfl, rfl, rfl⟩, rfl⟩
        · cases h
          exact .inl ⟨.of_same rfl rfl rfl, rfl⟩
        · cases h
    | _ => cases ch <;> cases h
  | clear =>
    cases h
    exact .inr (.inr (.inr (.inr (.inl ⟨rfl, rfl, rfl, rfl⟩))))
  | close =>
    refine .inr (.inr (.inr (.inr (.inr ?_))))
    by_cases hopen : s.StopChOpen
    · obtain ⟨ch, full, hfield, hch⟩ := hopen
      simp only [step, hfield, hch, Option.some.injEq, Prod.mk.injEq] at h
      obtain ⟨rfl, rfl, rfl⟩ := h
      exact .inl ⟨rfl, rfl, rfl, rfl, rfl⟩
    · exact .inr (.inl ⟨rfl, hopen⟩)
  | drop =>
    cases h
    exact .inr (.inr (.inr (.inr (.inr (.inr (.inr ⟨rfl, rfl, rfl, rfl⟩))))))

/-! ## The invariant -/

/-- The goroutines of which there may be only one. -/
def Point.isLive (t : Point) : Bool := t.isRunning || t.isExiting

theorem Point.isLive_of_ownsStopCh (h : t.ownsStopCh = true) : t.isLive = true := by
  cases t <;> first | rfl | cases h

theorem Point.isLive_of_isLoop (h : t.isLoop = true) : t.isLive = true := by
  cases t <;> first | rfl | cases h

/-- One goroutine is live at a time, the flag tells whether one is running, and the channel of the
field is open while a goroutine owns it. -/
structure Sole (s : Pool Controller Point) : Prop where
  live : s.threads.countP Point.isLive ≤ 1
  running : s.threads.countP Point.isRunning = if s.shared.autoscalingRunning then 1 else 0
  owned : ∀ t ∈ s.threads, t.ownsStopCh = true → s.shared.StopChOpen
  close_nil : s.shared.panicked ≠ some .closeOfNil
  close_closed : s.shared.panicked ≠ some .closeOfClosed

theorem Sole.toLifeCycle {s : Pool Controller Point} (h : Sole s) : LifeCycle s where
  one_loop := (List.countP_mono_left fun _ _ => Point.isLive_of_isLoop).trans h.live
  flag := by
    rw [← List.countP_pos_iff, h.running]
    cases s.shared.autoscalingRunning <;> simp
  close_nil := h.close_nil
  close_closed := h.close_closed

section

variable {ts : List Point} {i : ℕ}

theorem Sole.quiet (h : Sole ⟨s, ts⟩) (ht : ts[i]? = some t) (hquiet : Quiet s s' t t') :
    Sole ⟨s', advance ts i t' []⟩ := by
  have hlive : t'.isLive = t.isLive := by
    rw [Point.isLive, Point.isLive, hquiet.running, hquiet.exiting]
  have h₁ := countP_advance Point.isLive ht t' []
  have h₂ := countP_advance Point.isRunning ht t' []
  rw [hlive, List.countP_nil] at h₁
  rw [hquiet.running, List.countP_nil] at h₂
  refine ⟨?_, ?_, fun u hu howns => ?_, ?_, ?_⟩
  · have := h.live
    dsimp only at this ⊢
    omega
  · have := h.running
    dsimp only at this ⊢
    rw [hquiet.flag]
    omega
  · refine hquiet.stopChOpen ?_
    rcases mem_of_mem_advance hu with rfl | hsame | hu
    · exact h.owned t (List.mem_of_getElem? ht) (hquiet.ownsStopCh ▸ howns)
    · exact h.owned u hsame howns
    · cases hu
  · rcases hquiet.panicked with heq | heq
    · exact heq ▸ h.close_nil
    · simp [heq]
  · rcases hquiet.panicked with heq | heq
    · exact heq ▸ h.close_closed
    · simp [heq]

theorem Sole.flag_eq (h : Sole ⟨s, ts⟩) (ht : ts[i]? = some t) (hlive : t.isLive = true) :
    s.autoscalingRunning = t.isRunning := by
  have hcount := h.running
  cases hrunning : t.isRunning with
  | true =>
    have hpos : 0 < ts.countP Point.isRunning :=
      List.countP_pos_iff.2 ⟨t, List.mem_of_getElem? ht, hrunning⟩
    by_contra hflag
    simp only [Bool.not_eq_true] at hflag
    simp only [hflag, Bool.false_eq_true, if_false] at hcount
    omega
  | false =>
    by_contra hflag
    simp only [Bool.not_eq_false] at hflag
    simp only [hflag, if_true] at hcount
    obtain ⟨u, hu, hurunning⟩ := List.countP_pos_iff.1 (hcount ▸ Nat.one_pos)
    obtain ⟨j, hj⟩ := List.mem_iff_getElem?.1 hu
    have hji : j ≠ i := by
      intro heq
      rw [heq, ht] at hj
      rw [Option.some.inj hj, hurunning] at hrunning
      cases hrunning
    have hnot := eq_false_of_countP_le_one h.live ht hlive hj hji
    rw [Point.isLive, hurunning] at hnot
    cases hnot

/-- A step of the live goroutine: nobody else is concerned. -/
theorem Sole.only (h : Sole ⟨s, ts⟩) (ht : ts[i]? = some t) (hlive : t.isLive = true)
    (hcount : (if t'.isLive then 1 else 0) + new.countP Point.isLive ≤ 1)
    (hflag : (if t'.isRunning then 1 else 0) + new.countP Point.isRunning =
      if s'.autoscalingRunning then 1 else 0)
    (hown : ∀ u, u = t' ∨ u ∈ new → u.ownsStopCh = true → s'.StopChOpen)
    (hpanic : s'.panicked = s.panicked) : Sole ⟨s', advance ts i t' new⟩ := by
  have h₁ := countP_advance Point.isLive ht t' new
  have h₂ := countP_advance Point.isRunning ht t' new
  rw [if_pos hlive] at h₁
  rw [← h.flag_eq ht hlive] at h₂
  refine ⟨?_, ?_, fun u hu howns => ?_, hpanic ▸ h.close_nil, hpanic ▸ h.close_closed⟩
  · have := h.live
    dsimp only at this ⊢
    omega
  · have := h.running
    dsimp only at this ⊢
    omega
  · rcases mem_advance ht hu with rfl | ⟨j, hji, hj⟩ | hu
    · exact hown _ (.inl rfl) howns
    · have hnot := eq_false_of_countP_le_one h.live ht hlive hj hji
      rw [Point.isLive_of_ownsStopCh howns] at hnot
      cases hnot
    · exact hown _ (.inr hu) howns

/-- A `Start` that wins while no loop is exiting is the first live goroutine. -/
theorem Sole.win (h : Sole ⟨s, ts⟩) (ht : ts[i]? = some .swap)
    (hflag : s.autoscalingRunning = false) (hexit : ∀ u ∈ ts, u.isExiting = false) :
    Sole ⟨{ s with autoscalingRunning := true }, advance ts i .make []⟩ := by
  have hrunning : ts.countP Point.isRunning = 0 := by simpa [hflag] using h.running
  have hnone : ∀ u ∈ ts, u.isLive = false := by
    intro u hu
    have hu' := List.countP_eq_zero.1 hrunning u hu
    rw [Point.isLive, hexit u hu, Bool.or_false]
    simpa using hu'
  have hlive : ts.countP Point.isLive = 0 :=
    List.countP_eq_zero.2 fun u hu => by simp [hnone u hu]
  have h₁ := countP_advance Point.isLive ht .make []
  have h₂ := countP_advance Point.isRunning ht .make []
  rw [hlive, if_neg (by decide), if_pos (by decide), List.countP_nil] at h₁
  rw [hrunning, if_neg (by decide), if_pos (by decide), List.countP_nil] at h₂
  refine ⟨h₁.le, h₂, fun u hu howns => ?_, h.close_nil, h.close_closed⟩
  rcases mem_of_mem_advance hu with rfl | hsame | hu
  · cases howns
  · have hnot := hnone u hsame
    rw [Point.isLive_of_ownsStopCh howns] at hnot
    cases hnot
  · cases hu

/-- **A step that does not restart early keeps the invariant.** -/
theorem Sole.step (h : Sole ⟨s, ts⟩) (ht : ts[i]? = some t)
    (hstep : Autoscaling.step s t c = some (s', t', new))
    (hearly : t = .swap → s.autoscalingRunning = false → ∀ u ∈ ts, u.isExiting = false) :
    Sole ⟨s', advance ts i t' new⟩ := by
  have howns := h.owned t (List.mem_of_getElem? ht)
  rcases step_cases hstep with ⟨hquiet, rfl⟩ | ⟨rfl, rfl, rfl, hflag, rfl⟩ |
    ⟨rfl, rfl, rfl, hopen, hflag, hpanic⟩ | ⟨rfl, rfl, rfl, rfl⟩ | ⟨rfl, rfl, rfl, rfl⟩ |
    ⟨rfl, rfl, rfl, hflag, hpanic⟩ | ⟨rfl, hclosed⟩ | ⟨rfl, rfl, rfl, rfl⟩
  · exact h.quiet ht hquiet
  · exact h.win ht hflag (hearly rfl hflag)
  · have hrunning := h.flag_eq ht rfl
    exact h.only ht rfl (by decide) (by rw [hflag, hrunning]; rfl) (fun _ _ _ => hopen) hpanic
  · have hrunning := h.flag_eq ht rfl
    exact h.only ht rfl (by decide) (by rw [hrunning]; rfl) (fun _ _ _ => howns rfl) rfl
  · exact h.only ht rfl (by decide) rfl (fun _ _ _ => howns rfl) rfl
  · have hrunning := h.flag_eq ht rfl
    refine h.only ht rfl (by decide) (by rw [hflag, hrunning]; rfl) (fun u hu huowns => ?_) hpanic
    rcases hu with rfl | hu
    · cases huowns
    · cases hu
  · exact absurd (howns rfl) hclosed
  · have hrunning := h.flag_eq ht rfl
    refine h.only ht rfl (by decide) (by rw [hrunning]; rfl) (fun u hu huowns => ?_) rfl
    rcases hu with rfl | hu
    · cases huowns
    · cases hu

end

theorem Sole.call {s : Pool Controller Point} (h : Sole s) (ht : t.isLive = false) :
    Sole ⟨s.shared, s.threads ++ [t]⟩ := by
  have hrunning : t.isRunning = false := (Bool.or_eq_false_iff.1 ht).1
  refine ⟨?_, ?_, forall_mem_concat h.owned fun howns => ?_, h.close_nil, h.close_closed⟩
  · simpa [ht] using h.live
  · simpa [hrunning] using h.running
  · rw [Point.isLive_of_ownsStopCh howns] at ht
    cases ht

/-- What `NewPerFunctionStateController` makes. -/
def newController : Pool Controller Point := ⟨{}, []⟩

theorem init_newController : controller.machine.init newController := ⟨rfl, rfl⟩

theorem sole_new : Sole newController where
  live := Nat.zero_le 1
  running := rfl
  owned := by
    intro t ht
    cases ht
  close_nil := by simp [newController]
  close_closed := by simp [newController]

theorem sole_of_run {tr : List Interleaving} {s : Pool Controller Point}
    (hrun : controller.machine.Run tr s) (hcond : ∀ st ∈ tr, ¬ RestartsEarly st) : Sole s := by
  refine hrun.invariant (I := fun _ s => Sole s) (G := fun st => ¬ RestartsEarly st) ?_ ?_ hcond
  · rintro ⟨s, ts⟩ ⟨rfl, rfl⟩
    exact sole_new
  · intro tr s e s' _ h hG hn
    rcases Threads.next_cases hn with ⟨a, t, rfl, ht, rfl⟩ |
      ⟨i, c, t, σ', t', new, rfl, ht, hstep, rfl⟩
    · cases a with
      | start | stop => cases ht; exact h.call rfl
    · simp only [controller] at hstep
      split_ifs at hstep
      refine h.step ht hstep fun hswap hflag u hu => ?_
      by_contra hexiting
      exact hG ⟨ht.trans (congrArg some hswap), hflag, u, hu, by simpa using hexiting⟩

/-- **The life cycle.** In every interleaving in which no `Start` wins while a loop that has cleared
the flag has not returned, there is at most one loop, the flag is set exactly while one is running,
and neither `nil` nor a closed channel is closed. -/
theorem lifeCycle {tr : List Interleaving} {s : Pool Controller Point}
    (hrun : controller.machine.Run tr s) (hcond : ∀ st ∈ tr, ¬ RestartsEarly st) : LifeCycle s :=
  (sole_of_run hrun hcond).toLifeCycle

/-- A `Start` that starts a loop. -/
def starts (i : ℕ) : List (Threads.Event Method Choice) :=
  [.start .start, .run i .none, .run i .none, .run i .none]

/-- A loop that ends by itself. -/
def exitsByItself (i : ℕ) : List (Threads.Event Method Choice) :=
  [.run i (.desired 1), .run i .taken, .run i .none, .run i .tick, .run i (.desired 0),
    .run i .taken, .run i .none]

/-- A loop that ends, a second `Start` after it, and a `Stop`. -/
theorem lifeCycle_of_restart : ∃ tr s, controller.machine.Run tr s ∧ s.threads.length = 5 ∧
    LifeCycle s := by
  have hplay : ∃ tr s, controller.machine.Run tr s ∧ s.threads.length = 5 ∧
      ∀ st ∈ tr, ¬ RestartsEarly st :=
    Machine.exists_run_of_play
      (starts 0 ++ exitsByItself 1 ++ [.run 1 .none, .run 1 .none] ++ starts 2 ++
        [.start .stop, .run 4 .none, .run 4 .none, .run 4 .none])
      init_newController (by decide +kernel)
  obtain ⟨tr, s, hrun, hlength, hcond⟩ := hplay
  exact ⟨tr, s, hrun, hlength, lifeCycle hrun hcond⟩

/-- A `Start` between the store and the `close` of the first loop: there are two loops, the first
one closes the channel of the second and sets the field to `nil`, and the second closes `nil`. -/
theorem exists_close_nil : ∃ tr s, controller.machine.Run tr s ∧
    s.shared.panicked = some .closeOfNil ∧
    ∃ st ∈ tr, st.src.threads.countP Point.isLoop = 2 :=
  Machine.exists_run_of_play
    (starts 0 ++ exitsByItself 1 ++ starts 2 ++ [.run 1 .none, .run 1 .none] ++
      exitsByItself 3 ++ [.run 3 .none])
    init_newController (by decide +kernel)

end Dirigent.Autoscaling
