import Dirigent.ControlPlane.Allocation

/-!
# Sending on a closed channel

The autoscaler of a service sends desired scales on the service's channel, and `DeregisterService`
closes the channel. Nothing makes the two wait for each other, and to send on a closed channel
crashes the control plane.

* `sendsOnClosed` — a step that does so.
* `ClosesQuietly` — the condition: when a channel is closed, no goroutine is on the way to send on
  it.
* `Sends` — the invariant: nobody is on the way to send on a closed channel. After the channel is
  closed nobody comes to be: the service is taken out of `SIStorage` under the same lock, and it is
  looked up under a read lock.
-/

namespace Dirigent.ControlPlane

open Prog Protocol Threads

/-- The step sends on a closed channel, or finds that the channel was closed while it was
sending. -/
def sendsOnClosed (st : Machine.Step System (Threads.Event Op Choice)) : Bool :=
  match st.event with
  | .start _ => false
  | .run i _ => st.src.threads[i]?.any fun t => match t.code with
    | .act (.offer c _) _ => (st.src.shared.data.services c).channelClosed
    | .act (.awaitTaken c) _ => (st.src.shared.data.services c).channelClosed &&
        (st.src.shared.data.services c).offer.isSome
    | _ => false

/-- The goroutine starts or is the autoscaler of the service `c` with this name. -/
def Op.mayAutoscale (c : ℕ) (name : String) : Op → Bool
  | .scalingLoop c' => decide (c' = c)
  | .scalingLoopRound c' => decide (c' = c)
  | .onMetricsReceive name' => decide (name' = name)
  | .reconstructEndpoint e => decide (e.serviceName = name)
  | _ => false

/-- The goroutine has not looked the service up yet, or has sent for the last time. -/
def pastSending : Code Unit → Bool
  | .sync .rlock .siStorage _ => true
  | .act (.closeStopCh _) _ => true
  | .act (.dropStopCh _) _ => true
  | .ret _ => true
  | _ => false

/-- The goroutine may still send on the channel of the service `c`. -/
def maySend (s : State) (c : ℕ) (t : Goroutine Op (Code Unit)) : Bool :=
  decide (t.phase ≠ .finished) && t.op.mayAutoscale c (s.services c).info.name &&
    !pastSending t.code

/-- The condition: a channel is closed when no goroutine may still send on it. -/
def ClosesQuietly (st : Machine.Step System (Threads.Event Op Choice)) : Prop :=
  ∀ c < st.src.shared.data.serviceCount, (st.src.shared.data.services c).channelClosed = false →
    (st.dst.shared.data.services c).channelClosed = true →
    ∀ t ∈ st.src.threads, maySend st.src.shared.data c t = false

instance (st : Machine.Step System (Threads.Event Op Choice)) : Decidable (ClosesQuietly st) :=
  Nat.decidableBallLT _ _

/-! ## On the way to a send -/

inductive SendPos
  /-- A goroutine that neither sends nor closes. -/
  | other
  /-- Nothing more to send or to close. -/
  | done
  /-- Before the lookup of the service. -/
  | looking (name : String)
  /-- After it, and before the autoscaler is started. -/
  | found (name : String) (c : ℕ)
  /-- The autoscaler. -/
  | sending (c : ℕ)
  /-- `DeregisterService`, with what it has looked up. -/
  | closing (name : String) (c : Option ℕ)
  /-- The channel is closed, and the service still has to be removed. -/
  | closed (name : String) (c : ℕ)

/-- Accesses to what starts, stops and feeds the loops of a service. -/
def Act.isChannelAct : Act → Bool
  | .getService _ | .removeService _ | .closeChannel _ | .casAutoscaling _ | .clearAutoscaling _
  | .makeStopCh _ | .closeStopCh _ | .dropStopCh _ | .offer _ _ | .awaitTaken _ => true
  | _ => false

/-- The protocol of those who send and close. -/
def sendWatch : Protocol Lock Act Op Act.Ans SendPos where
  start
    | .scalingLoop c => .sending c
    | .scalingLoopRound c => .sending c
    | .onMetricsReceive name => .looking name
    | .reconstructEndpoint e => .looking e.serviceName
    | .deregisterService name => .closing name none
    | _ => .other
  next
    | .looking name, .act (.getService _) (some c) => .found name c
    | .looking _, .act (.getService _) none => .done
    | .found _ _, .act (.casAutoscaling _) false => .done
    | .found _ _, .go _ => .done
    | .sending _, .act (.clearAutoscaling _) _ => .done
    | .closing name _, .act (.getService _) r => .closing name r
    | .closing name _, .act (.closeChannel c) _ => .closed name c
    | .closed _ _, .act (.removeService _) _ => .done
    | x, _ => x
  guard
    | .other, _ => True
    | .done, .act (.closeStopCh _) _ => True
    | .done, .act (.dropStopCh _) _ => True
    | .done, .act a _ => a.isChannelAct = false
    | .done, .sync _ _ => True
    | .looking name, .act (.getService name') _ => name' = name
    | .looking _, .act a _ => a.isChannelAct = false
    | .looking _, .sync _ _ => True
    | .found _ c, .act (.casAutoscaling c') _ => c' = c
    | .found _ _, .act (.makeStopCh _) _ => True
    | .found _ _, .act a _ => a.isChannelAct = false
    | .found _ _, .sync .rlock .siStorage => False
    | .found _ _, .sync _ _ => True
    | .found _ c, .go cs => cs = [.scalingLoop c]
    | .sending c, .act (.offer c' _) _ => c' = c
    | .sending c, .act (.awaitTaken c') _ => c' = c
    | .sending _, .act (.clearAutoscaling _) _ => True
    | .sending _, .act a _ => a.isChannelAct = false
    | .sending c, .jump op => op = .scalingLoopRound c
    | .closing name _, .act (.getService name') _ => name' = name
    | .closing _ r, .act (.closeChannel c) _ => r = some c
    | .closing _ _, .act a _ => a.isChannelAct = false
    | .closing _ _, .sync _ _ => True
    | .closed name _, .act (.removeService name') _ => name' = name
    | _, _ => False
  ended
    | .found _ _ | .sending _ | .closed _ _ => False
    | _ => True

theorem follows_startAutoscaling (name : String) (c : ℕ) :
    sendWatch.Follows anyAnswer (startAutoscaling c) (fun _ y => y = .done) (.found name c) := by
  refine follows_perform.2 fun swapped _ => ⟨rfl, ?_⟩
  cases swapped with
  | false => exact rfl
  | true => exact fun _ _ => ⟨trivial, rfl, rfl⟩

theorem follows_stopAutoscalingLoop (c : ℕ) :
    sendWatch.Follows anyAnswer (stopAutoscalingLoop c) (fun _ y => y = .done) (.sending c) := by
  refine follows_perform.2 fun _ _ => ⟨trivial, follows_perform.2 fun closed _ => ⟨trivial, ?_⟩⟩
  cases closed with
  | true => exact fun _ _ => ⟨trivial, rfl⟩
  | false => exact trivial

theorem follows_scalingCycle (c : ℕ) (isScaleFromZero : Bool) :
    sendWatch.Follows anyAnswer (scalingCycle c isScaleFromZero)
      (fun stopped y => y = if stopped then .done else .sending c) (.sending c) := by
  refine follows_perform.2 fun desired _ => ⟨rfl, follows_perform.2 fun offered _ => ⟨rfl, ?_⟩⟩
  cases offered with
  | false => exact trivial
  | true =>
    refine follows_perform.2 fun taken _ => ⟨rfl, ?_⟩
    cases taken with
    | false => exact trivial
    | true =>
      simp only [if_true]
      split
      · refine follows_bind.2 (Follows.mono (follows_stopAutoscalingLoop c) ?_)
        rintro _ _ rfl
        exact rfl
      · exact rfl

theorem follows_onMetricsReceive (name : String) :
    sendWatch.Follows anyAnswer (onMetricsReceive name) (fun _ => sendWatch.ended)
      (.looking name) := by
  refine follows_bind.2 ⟨trivial, fun storage _ => ⟨rfl, ?_⟩⟩
  cases storage with
  | none => exact ⟨trivial, trivial⟩
  | some c =>
    refine ⟨trivial, (follows_bind (p := startAutoscaling c)).2
      (Follows.mono (follows_startAutoscaling name c) ?_)⟩
    rintro _ _ rfl
    exact trivial

theorem follows_reconstructEndpoint (e : EndpointRecord) :
    sendWatch.Follows anyAnswer (reconstructEndpoint e) (fun _ => sendWatch.ended)
      (.looking e.serviceName) := by
  refine Stays.bind (stays_withRLock ⟨trivial, rfl⟩ ⟨trivial, rfl⟩
    (stays_perform fun _ => ⟨rfl, rfl⟩)) fun node => ?_
  cases node with
  | none => exact trivial
  | some n =>
    refine follows_perform.2 fun wn _ => ⟨rfl, follows_perform.2 fun ep _ => ⟨rfl, ?_⟩⟩
    refine follows_bind.2 ⟨trivial, fun ss _ => ⟨rfl, ?_⟩⟩
    cases ss with
    | none => exact ⟨trivial, trivial⟩
    | some c =>
      refine ⟨trivial, follows_perform.2 fun info _ => ⟨rfl, ?_⟩⟩
      have hsync : ∀ o l, l ≠ .siStorage →
          sendWatch.Admits (.found e.serviceName c) (.sync o l) := by
        intro o l hl
        cases o <;> cases l <;> first | exact ⟨trivial, rfl⟩ | exact absurd rfl hl
      refine (stays_addEndpointToWNStruct (fun o => hsync o _ nofun) (fun o _ => hsync o _ nofun)
        trivial (fun _ => ⟨rfl, rfl⟩) fun _ _ => ⟨rfl, rfl⟩).bind fun _ => ?_
      have hentered : sendWatch.Stays anyAnswer (.found e.serviceName c)
          (withLock (.endpointLock c) (do
            let seen : List ℕ ← call (.getEndpoints c)
            call (.setEndpoints c seen ep)
            let es : List ℕ ← call (.getEndpoints c)
            call (.prepareEndpointInfo es))) :=
        stays_withLock ⟨trivial, rfl⟩ ⟨trivial, rfl⟩ (Stays.bind (stays_perform fun _ => ⟨rfl, rfl⟩)
          fun _ => Stays.bind (stays_perform fun _ => ⟨rfl, rfl⟩) fun _ =>
            Stays.bind (stays_perform fun _ => ⟨rfl, rfl⟩) fun _ =>
              stays_perform fun _ => ⟨rfl, rfl⟩)
      refine hentered.bind fun infos => ?_
      refine (stays_updateEndpoints (fun o => hsync o _ nofun) (fun _ => ⟨rfl, rfl⟩)
        (fun _ => ⟨rfl, rfl⟩) (fun _ _ _ _ => ⟨rfl, rfl⟩) infos).bind fun _ => ?_
      refine follows_perform.2 fun _ _ => ⟨rfl, ?_⟩
      refine Follows.mono (follows_startAutoscaling _ c) ?_
      rintro _ _ rfl
      exact trivial

theorem stays_deleteDeployments {x : SendPos} {name : String} (ips : List String)
    (hx : ∀ ip r, sendWatch.Admits x (.act (.deleteDeployment ip name) r)) :
    sendWatch.Stays anyAnswer x (deleteDeployments name ips) := by
  induction ips with
  | nil => exact rfl
  | cons ip ips ih =>
    refine Stays.bind (stays_perform (hx ip)) fun ok => ?_
    cases ok with
    | false => exact rfl
    | true => exact ih

theorem follows_deregisterService (name : String) :
    sendWatch.Follows anyAnswer (deregisterService name) (fun _ => sendWatch.ended)
      (.closing name none) := by
  refine follows_bind.2 ⟨trivial, follows_bind.2 ?_⟩
  -- the lock is given back from a position from which the goroutine may end
  have hend : ∀ {r : Reply} {x : SendPos}, (x = .done ∨ ∃ c, x = .closing name c) →
      sendWatch.Follows anyAnswer (unlock .siStorage >>= fun _ => pure r)
        (fun _ => sendWatch.ended) x := by
    rintro r _ (rfl | ⟨c, rfl⟩)
    · exact ⟨trivial, trivial⟩
    · exact ⟨trivial, trivial⟩
  refine follows_perform.2 fun service _ => ⟨rfl, ?_⟩
  cases service with
  | none => exact hend (.inr ⟨_, rfl⟩)
  | some c =>
    refine follows_perform.2 fun deleted _ => ⟨rfl, ?_⟩
    cases deleted with
    | false => exact hend (.inr ⟨_, rfl⟩)
    | true =>
      have hremove : sendWatch.Stays anyAnswer (.closing name (some c))
          (removeServiceFromDataplane name) := by
        refine ⟨trivial, follows_perform.2 fun ips _ => ⟨rfl, ?_⟩⟩
        have hdeployments : sendWatch.Stays anyAnswer (.closing name (some c))
            (deleteDeployments name ips) := stays_deleteDeployments ips fun _ _ => ⟨rfl, rfl⟩
        refine hdeployments.bind fun ok => ?_
        cases ok with
        | false => exact rfl
        | true => exact ⟨trivial, rfl⟩
      refine hremove.bind fun err => ?_
      split
      · exact hend (.inr ⟨_, rfl⟩)
      · exact fun _ _ => ⟨rfl, fun _ _ => ⟨rfl, hend (.inl rfl)⟩⟩

theorem follows_sendWatch (op : Op) : sendWatch.Follows anyAnswer (body op)
    (fun _ => sendWatch.ended) (sendWatch.start op) := by
  have hignore : ∀ {α : Type} {p : Code α} {x : SendPos},
      sendWatch.Follows anyAnswer p (fun _ => sendWatch.ended) x →
      sendWatch.Follows anyAnswer (p >>= fun _ => pure ()) (fun _ => sendWatch.ended) x :=
    fun hp => follows_bind.2 (Follows.mono hp fun _ _ hy => hy)
  cases op with
  | onMetricsReceive name => exact hignore (follows_onMetricsReceive name)
  | reconstructEndpoint e => exact follows_reconstructEndpoint e
  | deregisterService name => exact hignore (follows_deregisterService name)
  | scalingLoop c =>
    refine follows_bind.2 (Follows.mono (follows_scalingCycle c true) ?_)
    rintro stopped _ rfl
    cases stopped with
    | true => exact trivial
    | false => exact rfl
  | scalingLoopRound c =>
    refine follows_perform.2 fun tick _ => ⟨rfl, ?_⟩
    cases tick with
    | false =>
      refine Follows.mono (follows_stopAutoscalingLoop c) ?_
      rintro _ _ rfl
      exact trivial
    | true =>
      refine follows_bind.2 (Follows.mono (follows_scalingCycle c false) ?_)
      rintro stopped _ rfl
      cases stopped with
      | true => exact trivial
      | false => exact rfl
  | _ =>
    refine Follows.mono (follows_of_closed (S := (· = .other)) ?_ (fun _ _ => trivial) rfl) ?_
    · rintro x l rfl
      exact ⟨trivial, rfl⟩
    · rintro _ x rfl
      trivial

/-! ## Positions and goroutines -/

namespace SendPos

/-- The position that a goroutine at this position was started in; `none` once it is done. -/
def origin : SendPos → Option SendPos
  | .other => some .other
  | .done => none
  | .looking name | .found name _ => some (.looking name)
  | .sending c => some (.sending c)
  | .closing name _ | .closed name _ => some (.closing name none)

/-- The service on whose channel the goroutine is going to send. -/
def target : SendPos → Option ℕ
  | .found _ c | .sending c => some c
  | _ => none

/-- What the goroutine has looked up under which name. -/
def service : SendPos → Option (String × ℕ)
  | .found name c | .closing name (some c) | .closed name c => some (name, c)
  | _ => none

theorem origin_start (op : Op) : (sendWatch.start op).origin = some (sendWatch.start op) := by
  cases op <;> rfl

theorem origin_next (x : SendPos) (l : Label Lock Act Op Act.Ans) :
    (sendWatch.next x l).origin = none ∨ (sendWatch.next x l).origin = x.origin := by
  simp only [sendWatch]
  split <;> first | exact .inl rfl | exact .inr rfl

variable {x : SendPos} {c : ℕ} {op d : Op} {name : String} {l : Label Lock Act Op Act.Ans}
  {r : Unit}

theorem eq_of_target (h : x.target = some c) :
    (∃ name, x = .found name c) ∨ x = .sending c := by
  cases x with
  | found name c' =>
    cases h
    exact .inl ⟨name, rfl⟩
  | sending c' =>
    cases h
    exact .inr rfl
  | _ => cases h

theorem not_ended_of_target (h : x.target = some c) : ¬ sendWatch.ended x := by
  rcases eq_of_target h with ⟨name, rfl⟩ | rfl <;> exact id

theorem not_guard_of_target (h : x.target = some c) :
    ¬ sendWatch.guard x (.sync .rlock .siStorage) ∧
      (∀ c r, ¬ sendWatch.guard x (.act (.closeStopCh c) r)) ∧
      ∀ c r, ¬ sendWatch.guard x (.act (.dropStopCh c) r) := by
  rcases eq_of_target h with ⟨name, rfl⟩ | rfl <;> exact ⟨id, nofun, nofun⟩

theorem mayAutoscale_of_start_looking (h : sendWatch.start op = .looking name) (c : ℕ) :
    op.mayAutoscale c name = true := by
  cases op with
  | onMetricsReceive name' | reconstructEndpoint e =>
    cases h
    simp [Op.mayAutoscale]
  | _ => cases h

theorem mayAutoscale_of_start_sending (h : sendWatch.start op = .sending c) (name : String) :
    op.mayAutoscale c name = true := by
  cases op with
  | scalingLoop c' | scalingLoopRound c' =>
    cases h
    simp [Op.mayAutoscale]
  | _ => cases h

theorem mem_refs_of_start_sending (h : sendWatch.start op = .sending c) :
    .service c ∈ op.refs := by
  cases op with
  | scalingLoop c' | scalingLoopRound c' =>
    cases h
    exact List.mem_singleton_self _
  | _ => cases h

/-- After the channel is closed the service is removed. -/
theorem guard_closed (hguard : sendWatch.guard (.closed name c) l) :
    ∃ r, l = .act (.removeService name) r := by
  cases l with
  | act a r =>
    cases a with
    | removeService name' =>
      obtain rfl : name' = name := hguard
      exact ⟨r, rfl⟩
    | _ => cases hguard
  | _ => cases hguard

/-- **What a step does to the position.** -/
theorem next_cases (hguard : sendWatch.guard x l) :
    (sendWatch.next x l = x ∧ ∀ name c, x ≠ .closed name c) ∨ sendWatch.next x l = .done ∨
    (∃ name c, x = .looking name ∧ l = .act (.getService name) (some c) ∧
      sendWatch.next x l = .found name c) ∨
    (∃ name r r', x = .closing name r ∧ l = .act (.getService name) r' ∧
      sendWatch.next x l = .closing name r') ∨
    ∃ name c r, x = .closing name (some c) ∧ l = .act (.closeChannel c) r ∧
      sendWatch.next x l = .closed name c := by
  simp only [sendWatch]
  split
  · next name name' c =>
    obtain rfl : name' = name := hguard
    exact .inr (.inr (.inl ⟨name', c, rfl, rfl, rfl⟩))
  · exact .inr (.inl rfl)
  · exact .inr (.inl rfl)
  · exact .inr (.inl rfl)
  · exact .inr (.inl rfl)
  · next name r name' r' =>
    obtain rfl : name' = name := hguard
    exact .inr (.inr (.inr (.inl ⟨name', r, r', rfl, rfl, rfl⟩)))
  · next name r c r' =>
    obtain rfl : r = some c := hguard
    exact .inr (.inr (.inr (.inr ⟨name, c, r', rfl, rfl, rfl⟩)))
  · exact .inr (.inl rfl)
  · next hno =>
    refine .inl ⟨rfl, ?_⟩
    rintro name c rfl
    obtain ⟨r, rfl⟩ := guard_closed hguard
    exact hno _ _ _ _ rfl rfl

theorem target_next (hguard : sendWatch.guard x l) (h : (sendWatch.next x l).target = some c) :
    x.target = some c ∨
      ∃ name, x = .looking name ∧ l = .act (.getService name) (some c) := by
  rcases next_cases hguard with ⟨hnext, -⟩ | hnext | ⟨name, c', rfl, rfl, hnext⟩ |
      ⟨name, r, r', rfl, rfl, hnext⟩ | ⟨name, c', r, rfl, rfl, hnext⟩ <;> rw [hnext] at h
  · exact .inl h
  · cases h
  · cases h
    exact .inr ⟨name, rfl, rfl⟩
  · cases h
  · cases h

theorem service_next (hguard : sendWatch.guard x l)
    (h : (sendWatch.next x l).service = some (name, c)) :
    x.service = some (name, c) ∨ l = .act (.getService name) (some c) := by
  rcases next_cases hguard with ⟨hnext, -⟩ | hnext | ⟨name', c', rfl, rfl, hnext⟩ |
      ⟨name', r, r', rfl, rfl, hnext⟩ | ⟨name', c', r, rfl, rfl, hnext⟩ <;> rw [hnext] at h
  · exact .inl h
  · cases h
  · cases h
    exact .inr rfl
  · cases r' with
    | none => cases h
    | some c' =>
      cases h
      exact .inr rfl
  · exact .inl h

theorem service_start (op : Op) : (sendWatch.start op).service = none := by
  cases op <;> rfl

theorem start_ne_closed (op : Op) : sendWatch.start op ≠ .closed name c := by
  cases op <;> exact fun h => by cases h

theorem eq_of_target_start (h : (sendWatch.start op).target = some c) :
    op = .scalingLoop c ∨ op = .scalingLoopRound c := by
  cases op with
  | scalingLoop c' =>
    cases h
    exact .inl rfl
  | scalingLoopRound c' =>
    cases h
    exact .inr rfl
  | _ => cases h

theorem guard_closeChannel (hguard : sendWatch.guard x (.act (.closeChannel c) r)) :
    x = .other ∨ ∃ name, x = .closing name (some c) := by
  cases x with
  | other => exact .inl rfl
  | closing name c' =>
    obtain rfl : c' = some c := hguard
    exact .inr ⟨name, rfl⟩
  | _ => cases hguard

section

variable (horigin : x.origin = none ∨ x.origin = some (sendWatch.start op))

include horigin

theorem start_of_origin {y : SendPos} (hx : x.origin = some y) : sendWatch.start op = y := by
  rcases horigin with h | h
  · rw [h] at hx
    cases hx
  · exact Option.some.inj (h.symm.trans hx)

theorem startsAutoscaler_of_looking (hx : x = .looking name) : op.startsAutoscaler = true := by
  have hstart : sendWatch.start op = .looking name := start_of_origin horigin (by rw [hx]; rfl)
  cases op with
  | onMetricsReceive name' | reconstructEndpoint e => rfl
  | _ => cases hstart

theorem target_of_jump (hjump : op.mayJump d = true) (hguard : sendWatch.guard x (.jump d))
    (hc : (sendWatch.start d).target = some c) :
    x.target = some c := by
  cases x with
  | sending c' =>
    obtain rfl : d = .scalingLoopRound c' := hguard
    exact hc
  | other =>
    have hother : sendWatch.start op = .other := start_of_origin horigin rfl
    rcases eq_of_target_start hc with rfl | rfl
    · cases op <;> cases hjump
    · cases op with
      | scalingLoop c' | scalingLoopRound c' => cases hother
      | _ => cases hjump
  | _ => cases hguard

theorem target_of_start {cs : List Op} (hstart : op.mayStart d = true)
    (hguard : sendWatch.guard x (.go cs) ∨ sendWatch.guard x (.join cs)) (hd : d ∈ cs)
    (hc : (sendWatch.start d).target = some c) : x.target = some c := by
  rcases eq_of_target_start hc with rfl | rfl
  · cases x with
    | found name c' =>
      rcases hguard with h | h
      · obtain rfl : cs = [.scalingLoop c'] := h
        cases List.mem_singleton.1 hd
        rfl
      · cases h
    | other =>
      have hother : sendWatch.start op = .other := start_of_origin horigin rfl
      cases op with
      | onMetricsReceive name | reconstructEndpoint e => cases hother
      | _ => cases hstart
    | _ => rcases hguard with h | h <;> cases h
  · cases hstart

theorem target_of_send {a : Act} {r : a.Ans} (ha : (∃ n, a = .offer c n) ∨ a = .awaitTaken c)
    (hmay : op.may a = true) (hguard : sendWatch.guard x (.act a r)) : x.target = some c := by
  cases x with
  | sending c' =>
    rcases ha with ⟨n, rfl⟩ | rfl
    · exact congrArg some (Eq.symm hguard)
    · exact congrArg some (Eq.symm hguard)
  | other =>
    have hother : sendWatch.start op = .other := start_of_origin horigin rfl
    rcases ha with ⟨n, rfl⟩ | rfl
    all_goals
      cases op with
      | scalingLoop c' | scalingLoopRound c' => cases hother
      | _ => cases hmay
  | _ => rcases ha with ⟨n, rfl⟩ | rfl <;> cases hguard

/-- Who closes a channel has looked the service up. -/
theorem eq_closing_of_guard (hmay : op.may (.closeChannel c) = true)
    (hguard : sendWatch.guard x (.act (.closeChannel c) r)) :
    ∃ name, x = .closing name (some c) := by
  rcases guard_closeChannel hguard with rfl | hx
  · have hother : sendWatch.start op = .other := start_of_origin horigin rfl
    cases op with
    | deregisterService name => cases hother
    | _ => cases hmay
  · exact hx

end

/-- How a goroutine comes to have closed a channel. -/
theorem eq_of_next_closed (hguard : sendWatch.guard x l) (h : sendWatch.next x l = .closed name c) :
    x = .closing name (some c) ∧ ∃ r, l = .act (.closeChannel c) r := by
  rcases next_cases hguard with ⟨hnext, hno⟩ | hnext | ⟨name', c', rfl, rfl, hnext⟩ |
      ⟨name', r, r', rfl, rfl, hnext⟩ | ⟨name', c', r, rfl, rfl, hnext⟩ <;> rw [hnext] at h
  · exact absurd h (hno name c)
  · cases h
  · cases h
  · cases h
  · cases h
    exact ⟨rfl, r, rfl⟩

end SendPos

/-- The locks that matter. -/
def onlySI : Lock → Bool
  | .siStorage => true
  | _ => false

theorem discipline_onlySI : Discipline onlySI false anyAnswer where
  deployments h := by cases h
  maps := .inl fun _ => rfl
  workers h := by cases h
  services h := by cases h
  snapshots h := by cases h

/-- The lock of `SIStorage` and the way to a send. -/
def siWatch : Protocol Lock Act Op Act.Ans ((Op × List (Lock × Bool)) × SendPos) :=
  (locks onlySI (lockRules onlySI false)).prod sendWatch

theorem follows_siWatch (op : Op) : siWatch.Follows anyAnswer (body op) (fun _ => siWatch.ended)
    (siWatch.start op) :=
  Follows.mono ((follows_locks discipline_onlySI op).prod (follows_sendWatch op))
    fun _ _ hend => hend

abbrev SendGoroutine := Goroutine Op ((Op × List Ref) × (Op × List (Lock × Bool)) × SendPos)

namespace SendGoroutine

def pos (g : SendGoroutine) : SendPos := g.code.2.2

def held (g : SendGoroutine) : List (Lock × Bool) := g.code.2.1.2

end SendGoroutine

/-- Nobody is on the way to send on a closed channel. -/
structure Sends (s : Shared Lock State) (gs : List SendGoroutine) : Prop where
  booked : Booked onlySI s.locks (Booked.heldAt (Booked.view gs))
  runs : ∀ g ∈ gs, g.code.2.1.1 = g.op
  origin : ∀ g ∈ gs, g.pos.origin = none ∨ g.pos.origin = some (sendWatch.start g.op)
  unended : ∀ g ∈ gs, g.phase = .finished → sendWatch.ended g.pos
  /-- What was looked up has that name. -/
  named : ∀ g ∈ gs, ∀ name c, g.pos.service = some (name, c) →
    c < s.data.serviceCount ∧ (s.data.services c).info.name = name
  /-- Between the closing of the channel and the removal of the service the lock is held. -/
  holds : ∀ g ∈ gs, ∀ name c, g.pos = .closed name c → (.siStorage, true) ∈ g.held
  /-- A service with a closed channel is being removed. -/
  mapped : ∀ name c, s.data.siStorage.lookup name = some c →
    (s.data.services c).channelClosed = true → ∃ g ∈ gs, g.pos = .closed name c
  quiet : ∀ g ∈ gs, ∀ c, g.pos.target = some c → (s.data.services c).channelClosed = false

section

variable {s s' : Shared Lock State} {gs new : List SendGoroutine} {g g' : SendGoroutine} {i : ℕ}
  {ch : Choice} {name : String} {c : ℕ}

theorem info_move (hm : (known.prod siWatch).Moves exec s i g ch s' g' new) {c : ℕ}
    (hc : c < s.data.serviceCount) :
    c < s'.data.serviceCount ∧ (s'.data.services c).info = (s.data.services c).info := by
  rcases hm.data_cases with hdata | ⟨a, r, -, hexec⟩
  · rw [hdata]
    exact ⟨hc, rfl⟩
  · exact ⟨lt_of_lt_of_le hc (exec_serviceCount hexec), (exec_service hc hexec).1⟩

theorem origin_move (horigin : g.pos.origin = none ∨ g.pos.origin = some (sendWatch.start g.op))
    (hm : (known.prod siWatch).Moves exec s i g ch s' g' new) :
    g'.pos.origin = none ∨ g'.pos.origin = some (sendWatch.start g'.op) := by
  rcases hm.code_cases with ⟨-, hg', -⟩ | ⟨l, -, hg', -⟩ | ⟨d, -, -, hg'⟩
  · rw [hg']
    exact horigin
  · rw [hg']
    rcases SendPos.origin_next g.pos l with h | h
    · exact .inl h
    · exact h ▸ horigin
  · rw [hg']
    exact .inr (SendPos.origin_start d)

theorem runs_move (hruns : g.code.2.1.1 = g.op)
    (hm : (known.prod siWatch).Moves exec s i g ch s' g' new) : g'.code.2.1.1 = g'.op := by
  rcases hm.code_cases with ⟨-, hg', -⟩ | ⟨l, -, hg', -⟩ | ⟨d, -, -, hg'⟩
  · rw [hg']
    exact hruns
  · rw [hg']
    cases l <;> exact hruns
  · rw [hg']
    exact rfl

/-- What a goroutine on the way to a send looks like from outside. -/
theorem maySend_of_target (hs : Sends s gs) (hg : g ∈ gs) {t : Goroutine Op (Code Unit)}
    (hsim : (known.prod siWatch).Sim anyAnswer g t) {c : ℕ} (hc : g.pos.target = some c) :
    maySend s.data c t = true := by
  obtain ⟨hfollows, hop, -, hphase⟩ := hsim
  have hunended : t.phase ≠ .finished := fun hfinished =>
    SendPos.not_ended_of_target hc (hs.unended g hg (hphase.trans hfinished))
  have hauto : t.op.mayAutoscale c (s.data.services c).info.name = true := by
    have horigin := hs.origin g hg
    rw [← hop]
    rcases SendPos.eq_of_target hc with ⟨name, hx⟩ | hx
    · rw [(hs.named g hg name c (by rw [hx]; rfl)).2]
      rw [hx] at horigin
      exact SendPos.mayAutoscale_of_start_looking (SendPos.start_of_origin horigin rfl) c
    · rw [hx] at horigin
      exact SendPos.mayAutoscale_of_start_sending (SendPos.start_of_origin horigin rfl) _
  have hpast : pastSending t.code = false := by
    obtain ⟨code, op, parent, phase⟩ := t
    by_contra hne
    have hpast : pastSending code = true := by simpa using hne
    unfold pastSending at hpast
    obtain ⟨hrlock, hclose, hdrop⟩ := SendPos.not_guard_of_target hc
    split at hpast
    · exact hrlock hfollows.1.2.2
    · exact hclose _ _ (hfollows true trivial).1.2.2
    · exact hdrop _ _ (hfollows () trivial).1.2.2
    · exact SendPos.not_ended_of_target hc hfollows.2.2
    · cases hpast
  simp [maySend, hunended, hauto, hpast]

theorem closed_move (hx : g.pos = .closed name c)
    (hm : (known.prod siWatch).Moves exec s i g ch s' g' new) :
    (s'.data = s.data ∧ g'.pos = .closed name c) ∨
      s'.data = { s.data with siStorage := s.data.siStorage.erase name } := by
  rcases hm.code_cases with ⟨hdata, hg', -⟩ | ⟨l, hguard, -, hdata⟩ | ⟨d, -, hguard, -⟩
  · rw [hg']
    exact .inl ⟨hdata, hx⟩
  · have hl := hguard.2.2
    change sendWatch.guard g.pos l at hl
    rw [hx] at hl
    obtain ⟨r, rfl⟩ := SendPos.guard_closed hl
    rcases hdata with ⟨-, hne⟩ | ⟨a, r', hr, hexec⟩
    · exact absurd rfl (hne _ _)
    · cases hr
      exact .inr (Prod.mk.inj (Option.some.inj hexec)).2.symm
  · have hl := hguard.2.2
    change sendWatch.guard g.pos _ at hl
    rw [hx] at hl
    cases hl

namespace Sends

variable (hs : Sends s gs) (hknown : KnownSound s (viewKnown gs))
  (hm : (known.prod siWatch).Moves exec s i g ch s' g' new)

include hs hknown in
theorem lt_serviceCount (hg : g ∈ gs)
    {c : ℕ} (hc : g.pos.target = some c) : c < s.data.serviceCount := by
  rcases SendPos.eq_of_target hc with ⟨name, hx⟩ | hx
  · exact (hs.named g hg name c (by rw [hx]; rfl)).1
  · obtain ⟨K, hK, hgs⟩ := hknown.exists_allocated
    refine hK.service c ((hgs g hg).2.2 _ (SendPos.mem_refs_of_start_sending ?_))
    exact SendPos.start_of_origin (hs.origin g hg) (by rw [hx]; rfl)

include hs hknown in
/-- The channel of somebody on the way to a send is not closed under them. -/
theorem quiet_move
    {ts ts' : List (Goroutine Op (Code Unit))}
    (hquiet : ClosesQuietly ⟨⟨s, ts⟩, .run i ch, ⟨s', ts'⟩⟩)
    (hsim : List.Forall₂ ((known.prod siWatch).Sim anyAnswer) gs ts) (hg : g ∈ gs) {c : ℕ}
    (hc : g.pos.target = some c) : (s'.data.services c).channelClosed = false := by
  by_contra hclosed
  have hmay :=
    hquiet c (hs.lt_serviceCount hknown hg hc) (hs.quiet g hg c hc) (by simpa using hclosed)
  obtain ⟨j, hj⟩ := List.mem_iff_getElem?.1 hg
  have hflip : List.Forall₂ (fun t g => (known.prod siWatch).Sim anyAnswer g t) ts gs := hsim.flip
  obtain ⟨t, ht, hgt⟩ := exists_of_forall₂ hflip hj
  have hfalse := hmay t (List.mem_of_getElem? ht)
  rw [maySend_of_target hs hg hgt hc] at hfalse
  cases hfalse

include hs in
/-- **A service that is looked up to be autoscaled has an open channel.** Whoever closed it would
still hold the lock. -/
theorem open_of_lookup (hg : gs[i]? = some g) {name : String} {c : ℕ}
    (hx : g.pos = .looking name) (hguard : (known.prod siWatch).guard g.code
      (.act (.getService name) (some c))) (hc : s.data.siStorage.lookup name = some c) :
    (s.data.services c).channelClosed = false := by
  by_contra hclosed
  obtain ⟨u, hu, hpos⟩ := hs.mapped name c hc (by simpa using hclosed)
  obtain ⟨j, hj⟩ := List.mem_iff_getElem?.1 hu
  have hwriter : (Lock.siStorage, true) ∈ Booked.heldAt (Booked.view gs) j := by
    rw [Booked.heldAt_view hj]
    exact hs.holds u hu name c hpos
  have hreader : (Lock.siStorage, false) ∈ Booked.heldAt (Booked.view gs) i := by
    rw [Booked.heldAt_view hg]
    refine hguard.2.1.1 (.siStorage, false) ?_ rfl
    rw [hs.runs g (List.mem_of_getElem? hg)]
    have hstarts := SendPos.startsAutoscaler_of_looking (hs.origin g (List.mem_of_getElem? hg)) hx
    simp [Op.needs, hstarts]
  obtain rfl := hs.booked.eq_of_mem rfl hwriter hreader
  obtain rfl := Option.some.inj (hg.symm.trans hj)
  rw [hx] at hpos
  cases hpos

include hs hknown hm

theorem named_move (hg : g ∈ gs) {name : String} {c : ℕ} (hc : g'.pos.service = some (name, c)) :
    c < s'.data.serviceCount ∧ (s'.data.services c).info.name = name := by
  have hold : g.pos.service = some (name, c) →
      c < s'.data.serviceCount ∧ (s'.data.services c).info.name = name := by
    intro h
    obtain ⟨hlt, hname⟩ := hs.named g hg name c h
    obtain ⟨hlt', hinfo⟩ := info_move hm hlt
    exact ⟨hlt', hinfo ▸ hname⟩
  rcases hm.code_cases with ⟨-, hg', -⟩ | ⟨l, hguard, hg', hdata⟩ | ⟨d, -, -, hg'⟩
  · rw [hg'] at hc
    exact hold hc
  · rw [hg'] at hc
    rcases SendPos.service_next hguard.2.2 hc with h | rfl
    · exact hold h
    · rcases hdata with ⟨-, hne⟩ | ⟨a, r, hl, hexec⟩
      · exact absurd rfl (hne _ _)
      · cases hl
        obtain ⟨hlookup, hsame⟩ := Prod.mk.inj (Option.some.inj hexec)
        obtain ⟨K, hK, -⟩ := hknown
        obtain ⟨hmem, hname⟩ := hK.siStorage name c hlookup
        rw [← hsame]
        exact ⟨hK.service c hmem, hname⟩
  · rw [hg'] at hc
    have hnone : (sendWatch.start d).service = some (name, c) := hc
    rw [SendPos.service_start] at hnone
    cases hnone

omit hknown in
theorem holds_move (hg : g ∈ gs) {name : String} {c : ℕ}
    (hpos : g'.pos = .closed name c) : (.siStorage, true) ∈ g'.held := by
  rcases hm.code_cases with ⟨-, hg', -⟩ | ⟨l, hguard, hg', -⟩ | ⟨d, -, -, hg'⟩
  · rw [hg'] at hpos ⊢
    exact hs.holds g hg name c hpos
  · rw [hg'] at hpos ⊢
    obtain ⟨-, r, rfl⟩ := SendPos.eq_of_next_closed hguard.2.2 hpos
    exact hguard.2.1.1 (.siStorage, true) (List.mem_singleton_self _) rfl
  · rw [hg'] at hpos
    exact absurd hpos (SendPos.start_ne_closed d)

/-- **Nobody gets on the way to send on a closed channel.** -/
theorem target_move (hg : gs[i]? = some g) {c : ℕ}
    (hold : ∀ c, g.pos.target = some c → (s'.data.services c).channelClosed = false)
    (hc : g'.pos.target = some c) : (s'.data.services c).channelClosed = false := by
  rcases hm.code_cases with ⟨-, hg', -⟩ | ⟨l, hguard, hg', hdata⟩ | ⟨d, -, hguard, hg'⟩
  · rw [hg'] at hc
    exact hold c hc
  · rw [hg'] at hc
    rcases SendPos.target_next hguard.2.2 hc with h | ⟨name, hx, rfl⟩
    · exact hold c h
    · rcases hdata with ⟨-, hne⟩ | ⟨a, r, hl, hexec⟩
      · exact absurd rfl (hne _ _)
      · cases hl
        obtain ⟨hlookup, hsame⟩ := Prod.mk.inj (Option.some.inj hexec)
        rw [← hsame]
        exact hs.open_of_lookup hg hx hguard hlookup
  · rw [hg'] at hc
    obtain ⟨K, -, hgs⟩ := hknown.exists_allocated
    have hmem := List.mem_of_getElem? hg
    have hjump : g.op.mayJump d = true := (hgs g hmem).1 ▸ hguard.1.1
    exact hold c (SendPos.target_of_jump (hs.origin g hmem) hjump hguard.2.2 hc)

/-- **Nobody is started to send on a closed channel.** -/
theorem target_new (hg : g ∈ gs) {u : SendGoroutine}
    (hu : u ∈ new) {c : ℕ} (hc : u.pos.target = some c) : g.pos.target = some c := by
  obtain ⟨-, cs, parent, d, hguard, hd, rfl⟩ := hm.mem_new hu
  obtain ⟨K, -, hgs⟩ := hknown.exists_allocated
  have hstart : g.op.mayStart d = true := by
    rw [← (hgs g hg).1]
    rcases hguard with h | h
    · exact (h.1 d hd).1
    · exact (h.1 d hd).1
  have hsends : sendWatch.guard g.pos (.go cs) ∨ sendWatch.guard g.pos (.join cs) := by
    rcases hguard with h | h
    · exact .inl h.2.2
    · exact .inr h.2.2
  exact SendPos.target_of_start (hs.origin g hg) hstart hsends hd hc

/-- **A service with a closed channel is being removed**, also after a move. -/
theorem mapped_move (hg : gs[i]? = some g) (hc : s'.data.siStorage.lookup name = some c)
    (hclosed : (s'.data.services c).channelClosed = true) :
    ∃ u ∈ advance gs i g' new, u.pos = .closed name c := by
  have hmem := List.mem_of_getElem? hg
  -- somebody was removing it before
  have hold : s.data.siStorage.lookup name = some c → (s.data.services c).channelClosed = true →
      ∃ u ∈ advance gs i g' new, u.pos = .closed name c := by
    intro hc' hclosed'
    obtain ⟨u, hu, hpos⟩ := hs.mapped name c hc' hclosed'
    by_cases hug : u = g
    · subst hug
      rcases closed_move hpos hm with ⟨-, hpos'⟩ | hdata
      · exact ⟨g', mem_advance_self g' new hg, hpos'⟩
      · rw [hdata] at hc
        simp at hc
    · exact ⟨u, mem_advance_of_ne g' new hg hu hug, hpos⟩
  rcases hm.code_cases with ⟨hdata, -⟩ |
    ⟨l, hguard, hg', ⟨hdata, -⟩ | ⟨a, r, rfl, hexec⟩⟩ | ⟨d, hdata, -⟩
  · rw [hdata] at hc hclosed
    exact hold hc hclosed
  · rw [hdata] at hc hclosed
    exact hold hc hclosed
  · obtain ⟨K, hK, hgs⟩ := hknown.exists_allocated
    rcases exec_siStorage hexec hc with hc' | ⟨info, b, rfl, rfl, -⟩
    · obtain ⟨hservice, hname⟩ := hK.siStorage name c hc'
      by_cases ha : a = .closeChannel c
      · subst ha
        -- this goroutine closes the channel
        have hmay : g.op.may (.closeChannel c) = true := (hgs g hmem).1 ▸ hguard.1.1
        obtain ⟨name', hx⟩ := SendPos.eq_closing_of_guard (hs.origin g hmem) hmay hguard.2.2
        have hname' := (hs.named g hmem name' c (by rw [hx]; rfl)).2
        refine ⟨g', mem_advance_self g' new hg, ?_⟩
        rw [hg']
        change sendWatch.next g.pos _ = _
        rw [hx, ← hname, hname']
        rfl
      · rw [(exec_service (hK.service c hservice) hexec).2 ha] at hclosed
        exact hold hc' hclosed
    · obtain ⟨-, hdata⟩ := Prod.mk.inj (Option.some.inj hexec)
      rw [← hdata] at hclosed
      simp at hclosed
  · rw [hdata] at hc hclosed
    exact hold hc hclosed

/-- **A move keeps the invariant**, if no channel is closed under a goroutine that may send. -/
theorem move
    {ts ts' : List (Goroutine Op (Code Unit))}
    (hquiet : ClosesQuietly ⟨⟨s, ts⟩, .run i ch, ⟨s', ts'⟩⟩)
    (hsim : List.Forall₂ ((known.prod siWatch).Sim anyAnswer) gs ts) (hg : gs[i]? = some g) :
    Sends s' (advance gs i g' new) := by
  have hmem := List.mem_of_getElem? hg
  have hnew : ∀ u ∈ new, ∃ op, u.pos = sendWatch.start op ∧ u.op = op ∧ u.code.2.1.1 = op ∧
      u.phase = .ready := by
    intro u hu
    obtain ⟨-, cs, parent, d, -, -, rfl⟩ := hm.mem_new hu
    exact ⟨d, rfl, rfl, rfl, rfl⟩
  -- each field: the goroutine that moved, the others, and the new ones
  refine ⟨hs.booked.move_view hg hm, ?_, ?_, ?_, ?_, ?_, ?_, ?_⟩
  · refine forall_mem_advance (runs_move (hs.runs g hmem) hm) hs.runs fun u hu => ?_
    obtain ⟨op, -, hop, hrun, -⟩ := hnew u hu
    rw [hrun, hop]
  · refine forall_mem_advance (origin_move (hs.origin g hmem) hm) hs.origin fun u hu => ?_
    obtain ⟨op, hpos, hop, -⟩ := hnew u hu
    rw [hpos, hop]
    exact .inr (SendPos.origin_start op)
  · refine forall_mem_advance (fun hfinished => ?_) hs.unended fun u hu hfinished => ?_
    · rcases hm.code_cases with ⟨-, hg', hended⟩ | ⟨l, -, hg', -⟩ | ⟨d, -, -, hg'⟩
      · have hend := (hended hfinished).2.2
        rw [hg']
        exact hend
      · rw [hg'] at hfinished
        cases hfinished
      · rw [hg'] at hfinished
        cases hfinished
    · obtain ⟨-, -, -, -, hready⟩ := hnew u hu
      rw [hready] at hfinished
      cases hfinished
  · refine forall_mem_advance (fun name c => hs.named_move hknown hm hmem) ?_ ?_
    · intro u hu name c hc
      obtain ⟨hlt, hname⟩ := hs.named u hu name c hc
      obtain ⟨hlt', hinfo⟩ := info_move hm hlt
      exact ⟨hlt', hinfo ▸ hname⟩
    · intro u hu name c hc
      obtain ⟨op, hpos, -⟩ := hnew u hu
      rw [hpos, SendPos.service_start] at hc
      cases hc
  · refine forall_mem_advance (fun name c => hs.holds_move hm hmem) hs.holds ?_
    intro u hu name c hpos
    obtain ⟨op, hop, -⟩ := hnew u hu
    exact absurd (hop.symm.trans hpos) (SendPos.start_ne_closed op)
  · exact fun name c hc hclosed => hs.mapped_move hknown hm hg hc hclosed
  · have hopen : ∀ u ∈ gs, ∀ c, u.pos.target = some c →
        (s'.data.services c).channelClosed = false :=
      fun u hu c hc => hs.quiet_move hknown hquiet hsim hu hc
    refine forall_mem_advance (fun c => hs.target_move hknown hm hg (hopen g hmem)) hopen ?_
    exact fun u hu c hc => hopen g hmem c (hs.target_new hknown hm hmem hu hc)

end Sends

theorem Sends.call (hs : Sends s gs) {op : Op} (hop : op.isCall = true) :
    Sends s (gs ++ [(known.prod siWatch).goroutine none op]) := by
  -- each field: the goroutines there were, and the new one
  refine ⟨hs.booked.call_view op, ?_, ?_, ?_, ?_, ?_, ?_, ?_⟩
  · exact forall_mem_concat hs.runs rfl
  · exact forall_mem_concat hs.origin (.inr (SendPos.origin_start op))
  · exact forall_mem_concat hs.unended nofun
  · refine forall_mem_concat hs.named fun name c hc => ?_
    have hnone : (sendWatch.start op).service = some (name, c) := hc
    rw [SendPos.service_start] at hnone
    cases hnone
  · exact forall_mem_concat hs.holds fun name c hpos => absurd hpos (SendPos.start_ne_closed op)
  · intro name c hc hclosed
    obtain ⟨u, hu, hpos⟩ := hs.mapped name c hc hclosed
    exact ⟨u, List.mem_append_left _ hu, hpos⟩
  · refine forall_mem_concat hs.quiet fun c hc => ?_
    have hstart : (sendWatch.start op).target = some c := hc
    rcases SendPos.eq_of_target_start hstart with rfl | rfl
    · cases hop
    · cases hop

end

/-! ## Runs -/

theorem exists_sends_of_run {tr : Trace} {s : System} (h : controlPlane.threads.machine.Run tr s)
    (hquiet : ∀ st ∈ tr, ClosesQuietly st) :
    ∃ gs, List.Forall₂ ((known.prod siWatch).Sim anyAnswer) gs s.threads ∧
      KnownSound s.shared (viewKnown gs) ∧ Sends s.shared gs := by
  rw [controlPlane_eq] at h
  refine exists_known_of_run (G := ClosesQuietly) (J := Sends) follows_siWatch
    (fun _ => allocated_of_fresh) (fun _ => refs_of_isCall) ?_ ?_ ?_ h hquiet
  · rintro s ⟨hfresh, hlocks, -⟩
    refine ⟨?_, by simp, by simp, by simp, by simp, by simp, ?_, by simp⟩
    · rw [hlocks]
      exact Booked.init
    · intro name c hc
      simp [hfresh.2.2.1] at hc
  · exact fun s ts gs op s' _ hop hs => hs.call hop
  · exact fun s ts gs s' ts' i ch g g' new hst hsim hg hm hknown hs => hs.move hknown hm hst hsim hg

theorem Sends.open_of_send {s : Shared Lock State} {gs : List SendGoroutine} {g : SendGoroutine}
    (hs : Sends s gs) (hknown : KnownSound s (viewKnown gs)) (hg : g ∈ gs) {a : Act} {r : a.Ans}
    {c : ℕ} (ha : (∃ n, a = .offer c n) ∨ a = .awaitTaken c)
    (hguard : (known.prod siWatch).guard g.code (.act a r)) :
    (s.data.services c).channelClosed = false := by
  obtain ⟨K, -, hgs⟩ := hknown.exists_allocated
  have hmay : g.op.may a = true := (hgs g hg).1 ▸ hguard.1.1
  exact hs.quiet g hg c (SendPos.target_of_send (hs.origin g hg) ha hmay hguard.2.2)

/-- **No send on a closed channel**, in every run in which channels are closed quietly. -/
theorem not_sendsOnClosed {tr : Trace} {s : System} (h : controlPlane.threads.machine.Run tr s)
    (hquiet : ∀ st ∈ tr, ClosesQuietly st) : ∀ st ∈ tr, sendsOnClosed st = false := by
  intro st hst
  obtain ⟨tr', hsub, hrun⟩ := h.src hst
  obtain ⟨gs, hsim, hknown, hs⟩ := exists_sends_of_run hrun fun u hu => hquiet u (hsub.subset hu)
  -- who sends follows the protocol, which knows the channel to be open
  have hopen : ∀ {i : ℕ} {t : Goroutine Op (Code Unit)}, st.src.threads[i]? = some t → ∀ a k c,
      t.code = .act a k → a.Ans → ((∃ n, a = .offer c n) ∨ a = .awaitTaken c) →
        (st.src.shared.data.services c).channelClosed = false := by
    intro i t ht a k c hcode r ha
    obtain ⟨g, hg, hfollows, -⟩ := exists_of_forall₂ hsim ht
    rw [hcode] at hfollows
    exact hs.open_of_send hknown (List.mem_of_getElem? hg) ha (hfollows r trivial).1
  unfold sendsOnClosed
  split
  · rfl
  · next i ch _ =>
    cases ht : st.src.threads[i]? with
    | none => rfl
    | some t =>
      rw [Option.any_some]
      split
      · next c n k hcode => exact hopen ht _ k c hcode true (.inl ⟨n, rfl⟩)
      · next c k hcode =>
        rw [hopen ht _ k c hcode true (.inr rfl)]
        rfl
      · rfl

/-- A service is registered, its autoscaler sends the desired count `0` and stops, and the service
is deregistered. -/
theorem not_sendsOnClosed_of_stopped : ∃ tr s, controlPlane.threads.machine.Run tr s ∧
    (∃ st ∈ tr, (st.src.shared.data.services 0).channelClosed = true) ∧
    ∀ st ∈ tr, sendsOnClosed st = false := by
  obtain ⟨tr, s, hrun, hclosed, hquiet⟩ : ∃ tr s, controlPlane.threads.machine.Run tr s ∧
      (∃ st ∈ tr, (st.src.shared.data.services 0).channelClosed = true) ∧
      ∀ st ∈ tr, ClosesQuietly st :=
    Machine.exists_run_of_play (List.flatten
      [[.start (.registerService ⟨"f", "image", 1, 1⟩)], List.replicate 14 (.run 0 .ok),
        [.start (.onMetricsReceive "f")], List.replicate 7 (.run 2 .ok),
        List.replicate 2 (.run 3 .ok), List.replicate 2 (.run 1 .ok),
        List.replicate 5 (.run 3 .ok), [.start (.deregisterService "f")],
        List.replicate 12 (.run 4 .ok)]) init_newSystem (by decide +kernel)
  exact ⟨tr, s, hrun, hclosed, not_sendsOnClosed hrun hquiet⟩

/-- The service is deregistered while its autoscaler is about to send. -/
theorem exists_sendsOnClosed : ∃ tr s, controlPlane.threads.machine.Run tr s ∧
    ∃ st ∈ tr, sendsOnClosed st = true :=
  Machine.exists_run_of_play (List.flatten
    [[.start (.registerService ⟨"f", "image", 1, 1⟩)], List.replicate 14 (.run 0 .ok),
      [.start (.onMetricsReceive "f")], List.replicate 7 (.run 2 .ok),
      [.run 3 (.desired 1), .start (.deregisterService "f")], List.replicate 12 (.run 4 .ok),
      [.run 3 .ok]]) init_newSystem (by decide +kernel)

end Dirigent.ControlPlane
