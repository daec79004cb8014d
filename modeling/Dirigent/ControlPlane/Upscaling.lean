import Dirigent.ControlPlane.Allocation
import Dirigent.Held

/-!
# The sandboxes of one upscaling

`doUpscaling` starts a goroutine for each sandbox and waits for all of them, under the
`EndpointLock` of the service. Each goroutine appends its endpoint to `Controller.Endpoints`; the
lock is the parent's and does not keep the goroutines apart, so between the read of the list and the
store of the longer one another goroutine may store its own, which is then lost.

**The books (`Books`).** A goroutine whose `CreateSandbox` has succeeded owes one entry of the list
until it has stored it (`Stage`). In every state, the sandboxes that have been created are those of
the new entries together with those that are owed. A store keeps this if the list is still the one
that has been read (`appendsToCurrent`).

**The end.** The parent returns when all its goroutines have finished, and a goroutine that has
finished owes nothing.

* `remembered_of_run` — if every store finds the list as it was read, then the list that
  `doUpscaling` leaves has the earlier endpoints and one entry for every `CreateSandbox` that
  succeeded.
* `exists_forgotten` — two goroutines, of which one loses its entry.
-/

namespace Dirigent.ControlPlane

open Threads Protocol
open DataPlane (EndpointInfo)

/-! ## Upscaling on its own -/

/-- The goroutine that runs `doUpscaling`. -/
def upscaler (c k : ℕ) : Goroutine Op (Code Unit) :=
  { code := doUpscaling c k, op := .scalingControllerLoop c }

/-- `doUpscaling(k)` of the service `c`, in any state and with any locks held. -/
def upscaling (c k : ℕ) (s₀ : State) (locks : Lock → RWMutex) :
    Machine System (Threads.Event Op Choice) :=
  (controlPlaneFrom (fun _ => True) fun _ => false).threads.machine.startingAt
    ⟨⟨s₀, locks, fun _ => 0⟩, [upscaler c k]⟩

/-- The sandbox that an action creates: `CreateSandbox`, if it succeeds. -/
def createdBy : Act → Choice → Option (String × ℤ)
  | .createSandbox _ _, .sandbox id hostPort => some (id, hostPort)
  | _, _ => none

/-- The sandbox that a step has created. -/
def created (st : Machine.Step System (Threads.Event Op Choice)) : Option (String × ℤ) :=
  match st.event with
  | .run i ch => (st.src.threads[i]?.bind actOf).bind fun a => createdBy a ch
  | .start _ => none

/-- The condition: a store to `Controller.Endpoints` finds the list that has been read. -/
def appendsToCurrent (st : Machine.Step System (Threads.Event Op Choice)) : Bool :=
  match stepAct st with
  | some (.setEndpoints c seen _) => (st.src.shared.data.services c).endpoints = seen
  | _ => true

/-- The sandbox of an endpoint. -/
def sandboxOf (s : State) (e : ℕ) : String × ℤ :=
  ((s.endpoints e).sandboxID, (s.endpoints e).hostPort)

/-- `doUpscaling` has returned. -/
def returned (s : System) : Bool := s.threads[0]?.any fun t => t.phase = .finished

/-- `Controller.Endpoints` holds the earlier endpoints and one for every sandbox that was created.
-/
def Remembered (c : ℕ) (earlier : List ℕ) (tr : Trace) (d : State) : Prop :=
  ∃ new, (d.services c).endpoints = earlier ++ new ∧
    (new.map (sandboxOf d)).Perm (tr.filterMap created)

/-! ## What a goroutine owes -/

/-- The goroutine of `doUpscaling`, before and after its wait; a goroutine that it has started, with
the sandbox it has created and the endpoint it has made for it; or any other goroutine. -/
inductive Stage
  | main
  | returned
  | idle
  | owes (sandbox : String × ℤ)
  | built (sandbox : String × ℤ) (e : ℕ)
  | other

/-- The actions of the goroutines that touch neither endpoints nor the lists of them. -/
def Act.isAside : Act → Bool
  | .nodeCount | .place | .addActualScale _ _ | .serviceInfo _ | .isConnected _ | .nodeInfo _
  | .endpointPersistence | .storeEndpoint _ | .getNode _ | .endpointMapSet _ _ _ | .getEndpoints _
  | .prepareEndpointInfo _ | .dataPlanes | .updateEndpointList _ _ _ => true
  | _ => false

namespace Stage

def may (c : ℕ) (x : Stage) : Act → Prop
  | .createSandbox _ _ => x = .idle
  | .newEndpoint e => x = .owes (e.sandboxID, e.hostPort)
  | .setEndpoints c' _ e => c' = c ∧ ∃ sandbox, x = .built sandbox e
  | a => a.isAside = true

def after : Stage → (a : Act) → a.Ans → Stage
  | .idle, .createSandbox _ _, some sandbox => .owes sandbox
  | .owes sandbox, .newEndpoint _, e => .built sandbox e
  | .built _ _, .setEndpoints _ _ _, _ => .idle
  | x, _, _ => x

/-- The sandbox for which there is no entry yet. -/
def debt : Stage → Multiset (String × ℤ)
  | .owes sandbox => {sandbox}
  | .built sandbox _ => {sandbox}
  | _ => 0

end Stage

/-- The goroutines of `doUpscaling` for the service `c`. -/
def owing (c : ℕ) : Protocol Lock Act Op Act.Ans Stage where
  start op := if op = .createSandbox c then .idle else .other
  next x
    | .act a r => x.after a r
    | .join _ => match x with
      | .main => .returned
      | x => x
    | _ => x
  guard x l := x = .other ∨ match l with
    | .act a _ => x.may c a
    | .sync _ _ => True
    | .go _ => False
    | .join cs => x = .main ∧ ∀ op ∈ cs, op = .createSandbox c
    | .jump _ => False
  ended x := x = .idle ∨ x = .returned ∨ x = .other

section

variable {c : ℕ} {x : Stage}

variable {a : Act} {r : a.Ans}

theorem admits_aside (ha : a.isAside = true) (r : a.Ans) :
    (owing c).Admits x (.act a r) := by
  refine ⟨Or.inr ?_, ?_⟩
  · cases a <;> first | exact ha | cases ha
  · cases x <;> cases a <;> first | rfl | cases ha

theorem admits_sync (o : LockOp) (l : Lock) : (owing c).Admits x (.sync o l) :=
  ⟨Or.inr trivial, rfl⟩

theorem owing_aside (ha : a.isAside = true) :
    (owing c).Stays anyAnswer x (call a) := stays_perform (admits_aside ha)

theorem owing_applyPlacementPolicy : (owing c).Stays anyAnswer x applyPlacementPolicy := by
  refine stays_withRLock (admits_sync _ _) (admits_sync _ _) ?_
  refine (stays_withRLock (admits_sync _ _) (admits_sync _ _) (owing_aside rfl)).bind ?_
  intro count
  split
  · exact rfl
  · exact owing_aside rfl

theorem owing_onWorker {α : Type} {n : ℕ} {p : Code α} {Q : α → Stage → Prop}
    (hp : (owing c).Follows anyAnswer p Q x) :
    (owing c).Follows anyAnswer (onWorker n p) Q x := by
  refine (owing_aside rfl).bind fun connected => ?_
  split
  · exact hp
  · exact trivial

theorem owing_callCreateSandbox (c n : ℕ) (info : ServiceInfo) :
    (owing c).Follows anyAnswer (onWorker n (call (.createSandbox n info)))
      (fun resp y => y = resp.elim .idle .owes) .idle := by
  refine owing_onWorker ?_
  intro resp _
  refine ⟨Or.inr rfl, ?_⟩
  cases resp with
  | none | some sandbox => exact rfl

theorem owing_storeNew (c : ℕ) (sandbox : String × ℤ) (e : ℕ) (name service : String) :
    (owing c).Follows anyAnswer (do
      addEndpointToWNStruct name e service
      let seen : List ℕ ← call (.getEndpoints c)
      call (.setEndpoints c seen e)
      let infos : List EndpointInfo ← call (.prepareEndpointInfo [e])
      updateEndpoints c infos) (fun _ y => y = .idle) (.built sandbox e) := by
  refine (stays_addEndpointToWNStruct (fun o => admits_sync o _) (fun o _ => admits_sync o _)
    trivial (admits_aside rfl) fun _ => admits_aside rfl).bind fun _ => ?_
  refine (owing_aside rfl).bind fun seen => ?_
  intro _ _
  refine ⟨Or.inr ⟨rfl, sandbox, rfl⟩, ?_⟩
  refine (owing_aside rfl).bind fun infos => ?_
  exact stays_updateEndpoints (fun _ => admits_sync _ _) (admits_aside rfl) (admits_aside rfl)
    (fun _ _ _ => admits_aside rfl) infos

/-- **The goroutine of `doUpscaling`** pays for the sandbox it has created. -/
theorem owing_createSandbox (c : ℕ) :
    (owing c).Follows anyAnswer (createSandbox c) (fun _ y => y = .idle) .idle := by
  refine owing_applyPlacementPolicy.bind ?_
  intro node
  cases node with
  | none => exact owing_aside rfl
  | some n =>
    refine (owing_aside rfl).bind fun info => ?_
    refine Protocol.follows_bind.2 ((owing_callCreateSandbox c n info).mono ?_)
    rintro resp _ rfl
    cases resp with
    | none => exact owing_aside rfl
    | some sandbox =>
      obtain ⟨id, hostPort⟩ := sandbox
      refine (owing_aside rfl).bind fun wn => (owing_aside rfl).bind fun persist => ?_
      have hnew : (owing c).Follows anyAnswer (do
          let e : ℕ ← call (.newEndpoint (endpointOf id hostPort n wn))
          addEndpointToWNStruct wn.nodeID e info.name
          let seen : List ℕ ← call (.getEndpoints c)
          call (.setEndpoints c seen e)
          let infos : List EndpointInfo ← call (.prepareEndpointInfo [e])
          updateEndpoints c infos) (fun _ y => y = .idle) (.owes (id, hostPort)) := by
        intro e _
        exact ⟨Or.inr rfl, owing_storeNew c (id, hostPort) e wn.nodeID info.name⟩
      split
      · exact (owing_aside rfl).bind fun _ => hnew
      · exact hnew

theorem owing_body (c : ℕ) (op : Op) :
    (owing c).Follows anyAnswer (body op) (fun _ => (owing c).ended) ((owing c).start op) := by
  by_cases hop : op = .createSandbox c
  · subst hop
    have hstart : (owing c).start (.createSandbox c) = .idle := if_pos rfl
    rw [hstart]
    exact (owing_createSandbox c).mono fun _ y hy => Or.inl hy
  · have hstart : (owing c).start op = .other := if_neg hop
    rw [hstart]
    refine (follows_of_closed (S := fun y => y = .other) ?_ (fun _ _ => trivial) rfl).mono
      fun _ y hy => Or.inr (Or.inr hy)
    rintro y l rfl
    refine ⟨Or.inl rfl, ?_⟩
    cases l <;> rfl

theorem sim_upscaler (c k : ℕ) :
    (owing c).Sim anyAnswer { code := .main, op := .scalingControllerLoop c } (upscaler c k) := by
  refine ⟨⟨Or.inr ⟨rfl, ?_⟩, Or.inr (Or.inl rfl)⟩, rfl, rfl, rfl⟩
  intro op hop
  exact List.eq_of_mem_replicate hop

/-! ## The books -/

/-- What is new in the list, and what is owed, are the sandboxes that have been created. -/
structure Books (c : ℕ) (earlier : List ℕ) (tr : Trace) (d : State)
    (gs : List (Goroutine Op Stage)) : Prop where
  listed : ∃ new : List ℕ, (d.services c).endpoints = earlier ++ new ∧
    (∀ e ∈ new, e < d.endpointCount) ∧
      (new.map (sandboxOf d) : Multiset (String × ℤ)) + (gs.map fun g => g.code.debt).sum =
        (tr.filterMap created : List (String × ℤ))
  built : ∀ g ∈ gs, ∀ sandbox e, g.code = .built sandbox e →
    e < d.endpointCount ∧ sandboxOf d e = sandbox

/-- The stages of a goroutine that `doUpscaling` has started. -/
def Stage.isChild : Stage → Bool
  | .idle | .owes _ | .built _ _ => true
  | _ => false

/-- The first goroutine waits for all others. -/
structure Crew (s : Shared Lock State) (gs : List (Goroutine Op Stage)) : Prop where
  family : Family s gs
  main : ∀ g, gs[0]? = some g → g.code = .main ∨ g.code = .returned
  others : ∀ (j : ℕ) g, gs[j]? = some g → j ≠ 0 → g.parent = some 0 ∧ g.code.isChild = true
  finished : ∀ g ∈ gs, g.phase = .finished → g.code = .idle ∨ g.code = .returned
  done : ∀ g, gs[0]? = some g → g.code = .returned → ∀ u ∈ gs, u.owedTo 0 = false

variable {earlier : List ℕ} {tr : Trace} {d d' : State} {s s' : Shared Lock State}
  {gs : List (Goroutine Op Stage)}
  {g : Goroutine Op Stage} {i : ℕ} {ch : Choice}
  {st : Machine.Step System (Threads.Event Op Choice)}

theorem exec_aside (ha : a.isAside = true) (h : exec a d ch = some (r, d')) (c : ℕ) :
    (d'.services c).endpoints = (d.services c).endpoints := by
  cases a with
  | addActualScale c' k =>
    cases h
    by_cases hc : c = c'
    · subst hc
      rw [modifyService_services_self]
    · rw [modifyService_services_ne hc]
  | nodeCount | serviceInfo | isConnected | nodeInfo | endpointPersistence | storeEndpoint
  | getNode | endpointMapSet | getEndpoints | prepareEndpointInfo | dataPlanes =>
    cases h
    rfl
  | place | updateEndpointList =>
    simp only [exec] at h
    repeat' split at h
    all_goals cases h
    all_goals rfl
  | _ => cases ha

theorem exec_sandboxOf (h : exec a d ch = some (r, d')) {e : ℕ} (he : e < d.endpointCount) :
    e < d'.endpointCount ∧ sandboxOf d' e = sandboxOf d e := by
  obtain ⟨hlt, hsame⟩ := exec_endpoints h he
  exact ⟨hlt, by rw [sandboxOf, sandboxOf, hsame]⟩

theorem balance_of_eq {M : Type*} [AddCancelCommMonoid M]
    {listed added owed owed' made paid new : M}
    (howed : owed' + paid = owed + new) (hnew : added + new = made + paid) :
    listed + added + owed' = made + (listed + owed) := by
  refine add_right_cancel (b := paid) ?_
  calc listed + added + owed' + paid = listed + added + (owed' + paid) := by abel
    _ = listed + owed + (added + new) := by rw [howed]; abel
    _ = made + (listed + owed) + paid := by rw [hnew]; abel

/-- **An action keeps the books**, if the entries that it adds to the list and to what is created
and owed balance. -/
theorem Books.act (h : Books c earlier tr d gs) (hg : gs[i]? = some g)
    (hexec : exec a d ch = some (r, d')) (added : List ℕ)
    (hlist : (d'.services c).endpoints = (d.services c).endpoints ++ added)
    (hadded : ∀ e ∈ added, e < d'.endpointCount)
    (hbalance : (added.map (sandboxOf d') : Multiset (String × ℤ)) + (g.code.after a r).debt =
      (created st).toList + g.code.debt)
    (hbuilt : ∀ sandbox e, g.code.after a r = .built sandbox e →
      e < d'.endpointCount ∧ sandboxOf d' e = sandbox) :
    Books c earlier (st :: tr) d'
      (advance gs i { g with code := g.code.after a r } []) := by
  obtain ⟨⟨new, hnew, hlt, hsum⟩, hold⟩ := h
  constructor
  · refine ⟨new ++ added, ?_, ?_, ?_⟩
    · rw [hlist, hnew, List.append_assoc]
    · exact List.forall_mem_append.2 ⟨fun e he => (exec_sandboxOf hexec (hlt e he)).1, hadded⟩
    · have hadvance := sum_advance (fun g : Goroutine Op Stage => g.code.debt) hg
        { g with code := g.code.after a r } []
      have htrace : (((st :: tr).filterMap created : List (String × ℤ)) : Multiset (String × ℤ)) =
          (created st).toList + (tr.filterMap created : List (String × ℤ)) := by
        cases hst : created st with
        | none => rw [List.filterMap_cons_none hst]; rfl
        | some sandbox => rw [List.filterMap_cons_some hst]; rfl
      rw [List.map_nil, List.sum_nil, add_zero] at hadvance
      rw [List.map_append, ← Multiset.coe_add, htrace, ← hsum,
        List.map_congr_left fun e he => (exec_sandboxOf hexec (hlt e he)).2]
      exact balance_of_eq hadvance hbalance
  · refine forall_mem_advance hbuilt ?_ (List.forall_mem_nil _)
    intro u hu sandbox e hcode
    obtain ⟨he, rfl⟩ := hold u hu sandbox e hcode
    exact exec_sandboxOf hexec he

theorem createdBy_aside (ha : a.isAside = true) (ch : Choice) : createdBy a ch = none := by
  cases a <;> first | rfl | cases ha

/-- **The actions of the goroutines keep the books.** -/
theorem Books.step_act (h : Books c earlier tr d gs) (hg : gs[i]? = some g)
    (hne : g.code ≠ .other) (hguard : (owing c).guard g.code (.act a r))
    (hexec : exec a d ch = some (r, d')) (hcreated : created st = createdBy a ch)
    (hcurrent : ∀ seen e, a = .setEndpoints c seen e → (d.services c).endpoints = seen) :
    Books c earlier (st :: tr) d'
      (advance gs i { g with code := g.code.after a r } []) := by
  have hmay : g.code.may c a := hguard.resolve_left hne
  by_cases haside : a.isAside = true
  · have hafter : g.code.after a r = g.code := (admits_aside (c := c) haside r).2
    refine h.act hg hexec [] ?_ (by simp) ?_ ?_
    · rw [exec_aside haside hexec, List.append_nil]
    · rw [hafter, hcreated, createdBy_aside haside]
      rfl
    · intro sandbox e hbuilt
      rw [hafter] at hbuilt
      obtain ⟨hlt, rfl⟩ := h.built g (List.mem_of_getElem? hg) sandbox e hbuilt
      exact exec_sandboxOf hexec hlt
  · cases a with
    | createSandbox n info =>
      have hidle : g.code = .idle := hmay
      refine h.act hg hexec [] ?_ (by simp) ?_ ?_
      · simp only [exec] at hexec
        split at hexec <;> cases hexec <;> rw [List.append_nil]
      · rw [hidle, hcreated]
        simp only [exec] at hexec
        split at hexec
        · cases hexec
          rfl
        · next hother =>
          cases hexec
          cases ch <;> first | rfl | exact absurd rfl (hother _ _)
      · intro sandbox e hbuilt
        rw [hidle] at hbuilt
        cases r <;> cases hbuilt
    | newEndpoint ep =>
      have howes : g.code = .owes (ep.sandboxID, ep.hostPort) := hmay
      have hexec' := hexec
      cases hexec
      refine h.act hg hexec' [] ?_ (by simp) ?_ ?_
      · rw [List.append_nil]
      · rw [howes, hcreated]
        rfl
      · intro sandbox e hbuilt
        rw [howes] at hbuilt
        cases hbuilt
        exact ⟨Nat.lt_succ_self _, by simp [sandboxOf]⟩
    | setEndpoints c' seen e =>
      obtain ⟨rfl, sandbox, hbuilt⟩ := hmay
      obtain ⟨hlt, heq⟩ := h.built g (List.mem_of_getElem? hg) sandbox e hbuilt
      have hexec' := hexec
      cases hexec
      refine h.act hg hexec' [e] ?_ ?_ ?_ ?_
      · rw [modifyService_services_self, hcurrent seen e rfl]
      · exact List.forall_mem_singleton.2 hlt
      · rw [hbuilt, hcreated]
        show (({sandboxOf d e} : Multiset (String × ℤ)) + 0) = 0 + {sandbox}
        rw [heq, add_zero, zero_add]
      · intro sandbox' e' hafter
        rw [hbuilt] at hafter
        cases hafter
    | _ => exact absurd hmay haside

/-! ## Who is done -/

variable {g' : Goroutine Op Stage} {new : List (Goroutine Op Stage)}

theorem Crew.code_ne_other (h : Crew s gs) (hg : gs[i]? = some g) : g.code ≠ .other := by
  intro hother
  by_cases hi : i = 0
  · subst hi
    rcases h.main g hg with hcode | hcode <;> rw [hother] at hcode <;> cases hcode
  · have hchild := (h.others i g hg hi).2
    rw [hother] at hchild
    cases hchild

theorem Crew.eq_zero_of_main (h : Crew s gs) (hg : gs[i]? = some g) (hcode : g.code = .main) :
    i = 0 := by
  by_contra hi
  have hchild := (h.others i g hg hi).2
  rw [hcode] at hchild
  cases hchild

/-- Nobody waits for a goroutine that moves, if nobody has waited for it. -/
theorem not_owedTo_of_parent {p : ℕ} (hparent : g'.parent = g.parent) (hphase : g.phase ≠ .finished)
    (h : g.owedTo p = false) : g'.owedTo p = false := by
  simp only [Goroutine.owedTo, hparent, Bool.and_eq_false_iff, decide_eq_false_iff_not] at h ⊢
  exact Or.inl (h.resolve_right fun hp => hp hphase)

/-- **A goroutine moves on** and stays what it is; only the first one starts others. -/
theorem Crew.keep (h : Crew s gs) (hg : gs[i]? = some g) (hphase : g.phase ≠ .finished)
    (hfamily : Family s' (advance gs i g' new)) (hparent : g'.parent = g.parent)
    (hmain : g.code = .main ∨ g.code = .returned → g'.code = .main ∨ g'.code = .returned)
    (hchild : g.code.isChild = true → g'.code.isChild = true)
    (hfinished : g'.phase = .finished → g'.code = .idle ∨ g'.code = .returned)
    (hdone : g'.code = .returned → g.code = .returned ∨ ∀ u ∈ gs, u.owedTo 0 = false)
    (hnew : new = [] ∨ i = 0 ∧ g'.code = .main ∧ ∀ u ∈ new, u.parent = some 0 ∧ u.code = .idle) :
    Crew s' (advance gs i g' new) := by
  have hstarted : ∀ u ∈ new, u.parent = some 0 ∧ u.code = .idle := by
    rcases hnew with rfl | ⟨-, -, hnew⟩
    · exact List.forall_mem_nil _
    · exact hnew
  have hlen : gs.length ≠ 0 := fun hlen => by simp [List.length_eq_zero_iff.1 hlen] at hg
  refine ⟨hfamily, ?_, ?_, ?_, ?_⟩
  · intro u hu
    rcases getElem?_advance hg hu with ⟨rfl, rfl⟩ | ⟨-, hu⟩ | ⟨hle, -⟩
    · exact hmain (h.main g hg)
    · exact h.main u hu
    · exact absurd (Nat.le_zero.1 hle) hlen
  · intro j u hu hj
    rcases getElem?_advance hg hu with ⟨rfl, rfl⟩ | ⟨-, hu⟩ | ⟨-, hu⟩
    · obtain ⟨hp, hc⟩ := h.others j g hg hj
      exact ⟨hparent.trans hp, hchild hc⟩
    · exact h.others j u hu hj
    · obtain ⟨hp, hidle⟩ := hstarted u hu
      exact ⟨hp, by rw [hidle]; rfl⟩
  · exact forall_mem_advance hfinished h.finished fun u hu _ => Or.inl (hstarted u hu).2
  · intro u hu hreturned
    have hold : ∀ w ∈ gs, w.owedTo 0 = false := by
      rcases getElem?_advance hg hu with ⟨rfl, rfl⟩ | ⟨-, hu⟩ | ⟨hle, -⟩
      · exact (hdone hreturned).elim (h.done g hg) id
      · exact h.done u hu hreturned
      · exact absurd (Nat.le_zero.1 hle) hlen
    refine forall_mem_advance
      (not_owedTo_of_parent hparent hphase (hold g (List.mem_of_getElem? hg))) hold ?_
    rcases hnew with rfl | ⟨rfl, hcode, -⟩
    · exact List.forall_mem_nil _
    · rw [getElem?_advance_self _ _ hg] at hu
      cases hu
      rw [hcode] at hreturned
      cases hreturned

theorem eq_returned_of_after {x : Stage} (h : x.after a r = .returned) : x = .returned := by
  cases x <;> cases a <;> first | exact h | cases h | (cases r <;> cases h)

theorem isChild_after {x : Stage} (hx : x.isChild = true) (a : Act) (r : a.Ans) :
    (x.after a r).isChild = true := by
  cases x with
  | idle =>
    cases a with
    | createSandbox n info => cases r <;> rfl
    | _ => rfl
  | owes sandbox | built sandbox e => cases a <;> rfl
  | _ => cases hx

/-- **Every move keeps the crew.** -/
theorem Crew.move (h : Crew s gs) (hg : gs[i]? = some g)
    (hm : (owing c).Moves exec s i g ch s' g' new) : Crew s' (advance gs i g' new) := by
  have hother := h.code_ne_other hg
  have hfamily := h.family.move hg hm
  have hphase := hm.phase_ne
  cases hm with
  | finish _ hended =>
    refine h.keep hg hphase hfamily rfl id id (fun _ => ?_) Or.inl (Or.inl rfl)
    rcases hended with hidle | hreturned | hcode
    · exact Or.inl hidle
    · exact Or.inr hreturned
    · exact absurd hcode hother
  | @act a r d _ hguard hexec =>
    have hkeep : ∀ x : Stage, x = .main ∨ x = .returned → x.after a r = x := by
      rintro x (rfl | rfl) <;> cases a <;> rfl
    refine h.keep hg hphase hfamily rfl ?_ (fun hc => isChild_after hc a r) (absurd · hphase) ?_
      (Or.inl rfl)
    · intro hmain
      show g.code.after a r = .main ∨ g.code.after a r = .returned
      rwa [hkeep g.code hmain]
    · exact fun hreturned => Or.inl (eq_returned_of_after hreturned)
  | announce | acquire => exact h.keep hg hphase hfamily rfl id id nofun Or.inl (Or.inl rfl)
  | unlock | rlock | runlock =>
    exact h.keep hg hphase hfamily rfl id id (absurd · hphase) Or.inl (Or.inl rfl)
  | go _ hguard | jump _ hguard => exact absurd (hguard.resolve_left hother) id
  | @join cs hready hguard =>
    obtain ⟨hmain, hcs⟩ := hguard.resolve_left hother
    obtain rfl := h.eq_zero_of_main hg hmain
    refine h.keep hg hphase hfamily rfl id id nofun Or.inl (Or.inr ⟨rfl, hmain, ?_⟩)
    intro u hu
    obtain ⟨op, hop, rfl⟩ := List.mem_map.1 hu
    exact ⟨rfl, if_pos (hcs op hop)⟩
  | @joined cs hwaiting hguard hzero =>
    obtain ⟨hmain, -⟩ := hguard.resolve_left hother
    obtain rfl := h.eq_zero_of_main hg hmain
    refine h.keep hg hphase hfamily rfl (fun _ => Or.inr ?_) ?_ nofun (fun _ => Or.inr ?_)
      (Or.inl rfl)
    · show (owing c).next g.code (.join cs) = .returned
      rw [hmain]
      rfl
    · intro hchild
      rw [hmain] at hchild
      cases hchild
    · exact fun u hu => h.family.not_owedTo_of_zero hzero hu

/-- What is not an action changes no debt. -/
theorem passive_debt (hother : g.code ≠ .other)
    (hm : (owing c).passive.Moves exec s i g ch s' g' new) :
    (g'.code = g.code ∨ g.code = .main ∧ g'.code = .returned) ∧ ∀ u ∈ new, u.code = .idle := by
  cases hm with
  | finish | announce | acquire | unlock | rlock | runlock =>
    exact ⟨Or.inl rfl, List.forall_mem_nil _⟩
  | @act a r d _ hguard => exact absurd rfl (hguard.2 a r)
  | go _ hguard | jump _ hguard => exact absurd (hguard.1.resolve_left hother) id
  | @join cs _ hguard =>
    obtain ⟨-, hcs⟩ := hguard.1.resolve_left hother
    refine ⟨Or.inl rfl, ?_⟩
    intro u hu
    obtain ⟨op, hop, rfl⟩ := List.mem_map.1 hu
    exact if_pos (hcs op hop)
  | @joined cs _ hguard _ =>
    obtain ⟨hmain, -⟩ := hguard.1.resolve_left hother
    refine ⟨Or.inr ⟨hmain, ?_⟩, List.forall_mem_nil _⟩
    show (owing c).next g.code (.join cs) = .returned
    rw [hmain]
    rfl

theorem Books.step_passive (h : Books c earlier tr s.data gs) (hg : gs[i]? = some g)
    (hother : g.code ≠ .other) (hm : (owing c).passive.Moves exec s i g ch s' g' new)
    (hdata : s'.data = s.data) (hcreated : created st = none) :
    Books c earlier (st :: tr) s'.data (advance gs i g' new) := by
  obtain ⟨⟨entries, hlist, hlt, hsum⟩, hbuilt⟩ := h
  obtain ⟨hcode, hidle⟩ := passive_debt hother hm
  have hdebt : g'.code.debt = g.code.debt := by
    rcases hcode with hsame | ⟨hmain, hreturned⟩
    · rw [hsame]
    · rw [hmain, hreturned]
      rfl
  have hnew : (new.map fun u => u.code.debt).sum = 0 :=
    List.sum_eq_zero (List.forall_mem_map.2 fun u hu => by rw [hidle u hu]; rfl)
  have hadvance := sum_advance (fun g : Goroutine Op Stage => g.code.debt) hg g' new
  rw [hnew, add_zero, hdebt] at hadvance
  constructor
  · rw [hdata]
    refine ⟨entries, hlist, hlt, ?_⟩
    rw [add_right_cancel hadvance, List.filterMap_cons_none hcreated]
    exact hsum
  · rw [hdata]
    refine forall_mem_advance ?_ hbuilt fun u hu sandbox e hub => by simp [hidle u hu] at hub
    intro sandbox e hub
    rcases hcode with hsame | ⟨-, hreturned⟩
    · exact hbuilt g (List.mem_of_getElem? hg) sandbox e (hsame.symm.trans hub)
    · simp [hreturned] at hub

end

/-! ## Whole runs -/

section

variable {c k : ℕ} {s₀ : State} {locks : Lock → RWMutex} {tr : Trace} {s : System}

/-- **The books and the crew** along every run whose stores find the list as it was read. -/
theorem exists_books_of_run (hrun : (upscaling c k s₀ locks).Run tr s)
    (hcurrent : ∀ st ∈ tr, appendsToCurrent st = true) :
    ∃ gs, List.Forall₂ ((owing c).Sim anyAnswer) gs s.threads ∧
      Books c (s₀.services c).endpoints tr s.shared.data gs ∧ Crew s.shared gs := by
  refine hrun.invariant (G := fun st => appendsToCurrent st = true)
    (I := fun tr s => ∃ gs, List.Forall₂ ((owing c).Sim anyAnswer) gs s.threads ∧
      Books c (s₀.services c).endpoints tr s.shared.data gs ∧ Crew s.shared gs) ?_ ?_ hcurrent
  · rintro _ rfl
    have hfamily : Family (⟨s₀, locks, fun _ => 0⟩ : Shared Lock State)
        ([] ++ [({ code := .main, op := .scalingControllerLoop c } : Goroutine Op Stage)]) :=
      (Family.init rfl).call rfl
    refine ⟨_, .cons (sim_upscaler c k) .nil, ⟨⟨[], (List.append_nil _).symm, nofun, rfl⟩, ?_⟩,
      ⟨hfamily, ?_, ?_, ?_, ?_⟩⟩
    · intro g hg sandbox e hcode
      rw [List.mem_singleton.1 hg] at hcode
      cases hcode
    · rintro g ⟨⟩
      exact Or.inl rfl
    · intro j g hg hj
      cases j with
      | zero => exact absurd rfl hj
      | succ j => cases hg
    · intro g hg hphase
      rw [List.mem_singleton.1 hg] at hphase
      cases hphase
    · rintro g ⟨⟩ hcode
      cases hcode
  · rintro tr ⟨s, ts⟩ e s' - ⟨gs, hsim, hbooks, hcrew⟩ hst hnext
    rcases Threads.next_cases hnext with ⟨op, t, rfl, hop, rfl⟩ |
      ⟨i, ch, t, d, t', new, rfl, ht, hstep, rfl⟩
    · simp [controlPlaneFrom, Lang.threads] at hop
    · obtain ⟨g, g', gnew, hg, hmoves, hsim', hcases⟩ := exists_advance_cases
        (owing_body c) hsim ht hstep fun _ _ _ _ _ _ => trivial
      have hother := hcrew.code_ne_other hg
      refine ⟨_, hsim', ?_, hcrew.move hg hmoves⟩
      rcases hcases with ⟨a, k, r, hcode, hexec, hguard, rfl, rfl⟩ | ⟨hcode, hdata, hpassive⟩
      · refine hbooks.step_act hg hother hguard hexec ?_ ?_
        · simp [created, actOf, ht, hcode]
        · rintro seen e rfl
          simpa [appendsToCurrent, stepAct, actOf, ht, hcode] using hst
      · refine hbooks.step_passive hg hother hpassive hdata ?_
        have hnone : actOf t = none := by
          unfold actOf
          split
          · next a k ha => exact absurd ha (hcode a k)
          · rfl
        simp [created, ht, hnone]

/-- When `doUpscaling` has returned, every goroutine has finished. -/
theorem Crew.debt_eq_zero {d : Shared Lock State} {gs : List (Goroutine Op Stage)}
    {g : Goroutine Op Stage} (h : Crew d gs) (hg : gs[0]? = some g) (hphase : g.phase = .finished) :
    (gs.map fun g => g.code.debt).sum = 0 := by
  have hreturned : g.code = .returned := by
    rcases h.finished g (List.mem_of_getElem? hg) hphase with hidle | hreturned
    · rcases h.main g hg with hmain | hmain <;> rw [hidle] at hmain <;> cases hmain
    · exact hreturned
  refine List.sum_eq_zero fun x hx => ?_
  obtain ⟨u, hu, rfl⟩ := List.mem_map.1 hx
  obtain ⟨j, hj⟩ := List.getElem?_of_mem hu
  by_cases hj0 : j = 0
  · subst hj0
    rw [hg] at hj
    cases hj
    rw [hreturned]
    rfl
  · have hnone := h.done g hg hreturned u hu
    have hfinished : u.phase = .finished := by
      by_contra hne
      rw [Goroutine.owedTo_iff.2 ⟨(h.others j u hj hj0).1, hne⟩] at hnone
      cases hnone
    rcases h.finished u hu hfinished with hcode | hcode <;> rw [hcode] <;> rfl

/-- **No created sandbox is forgotten**: when `doUpscaling` has returned, the list of endpoints has
the earlier ones and one for every `CreateSandbox` that succeeded, in every run whose stores find
the list as it was read. -/
theorem remembered_of_run (hrun : (upscaling c k s₀ locks).Run tr s)
    (hcurrent : ∀ st ∈ tr, appendsToCurrent st = true) (hreturned : returned s = true) :
    Remembered c (s₀.services c).endpoints tr s.shared.data := by
  obtain ⟨gs, hsim, ⟨⟨new, hlist, -, hsum⟩, -⟩, hcrew⟩ := exists_books_of_run hrun hcurrent
  obtain ⟨t, ht, hphase⟩ := (Option.any_eq_true _ _).1 hreturned
  obtain ⟨g, hg, -, -, -, hsame⟩ := exists_of_forall₂ hsim ht
  refine ⟨new, hlist, ?_⟩
  rw [hcrew.debt_eq_zero hg (hsame.trans (of_decide_eq_true hphase)), add_zero] at hsum
  exact Multiset.coe_eq_coe.1 hsum

end

/-! ## Two goroutines -/

/-- A connected worker node, and a service without endpoints. -/
def oneWorker : State :=
  { newControlPlane false false with
    niStorage := AList.insert "w" 0 ∅
    nodes := fun _ =>
      { info := ⟨"w", "10.0.0.1", 0, 0, 0⟩, endpointMap := ∅, connected := true,
        schedulable := true }
    nodeCount := 1
    serviceCount := 1 }

/-- The goroutine `i` creates a sandbox, until it reads the list of endpoints. -/
def creates (i : ℕ) (id : String) : List (Threads.Event Op Choice) :=
  List.replicate 4 (.run i .ok) ++ [.run i (.node 0)] ++ List.replicate 3 (.run i .ok) ++
    [.run i (.sandbox id 8080)] ++ List.replicate 11 (.run i .ok)

/-- The goroutine `i` stores the list and ends. -/
def stores (i : ℕ) : List (Threads.Event Op Choice) := List.replicate 8 (.run i .ok)

/-- One goroutine creates its sandbox after the other. -/
theorem remembered_of_sequence : ∃ tr s, (upscaling 0 2 oneWorker fun _ => {}).Run tr s ∧
    (tr.filterMap created).length = 2 ∧ returned s = true ∧
      Remembered 0 [] tr s.shared.data := by
  obtain ⟨tr, s, hrun, hcreated, hreturned, hcurrent⟩ :
      ∃ tr s, (upscaling 0 2 oneWorker fun _ => {}).Run tr s ∧ (tr.filterMap created).length = 2 ∧
        returned s = true ∧ ∀ st ∈ tr, appendsToCurrent st = true :=
    Machine.exists_run_of_play (List.flatten
      [[.run 0 .ok], creates 1 "a", stores 1, creates 2 "b", stores 2,
        List.replicate 2 (.run 0 .ok)])
      rfl (by decide +kernel)
  exact ⟨tr, s, hrun, hcreated, hreturned, remembered_of_run hrun hcurrent hreturned⟩

/-- Both goroutines read the list before either stores it: one of the two sandboxes is forgotten. -/
theorem exists_forgotten : ∃ tr s, (upscaling 0 2 oneWorker fun _ => {}).Run tr s ∧
    returned s = true ∧ ¬ Remembered 0 [] tr s.shared.data := by
  obtain ⟨tr, s, hrun, hreturned, hlist, hcreated⟩ :
      ∃ tr s, (upscaling 0 2 oneWorker fun _ => {}).Run tr s ∧ returned s = true ∧
        (s.shared.data.services 0).endpoints.length = 1 ∧ (tr.filterMap created).length = 2 :=
    Machine.exists_run_of_play (List.flatten
      [[.run 0 .ok], creates 1 "a", creates 2 "b", stores 1, stores 2,
        List.replicate 2 (.run 0 .ok)])
      rfl (by decide +kernel)
  refine ⟨tr, s, hrun, hreturned, ?_⟩
  rintro ⟨new, hnew, hperm⟩
  have hlength := hperm.length_eq
  rw [List.length_map, hcreated] at hlength
  rw [hnew, List.nil_append, hlength] at hlist
  cases hlist

end Dirigent.ControlPlane
