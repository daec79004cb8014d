import Dirigent.Threads

/-!
# Addresses of sandboxes

`IPManager` hands out addresses from one counter. `getUniqueCounterValue` loads the counter, stops
the process if the address space is used up, and tries to move the counter on by a compare-and-swap;
if another call has moved it in between, it starts again. The value is split into the third and the
fourth field of an address, and `GenerateSingleIP` takes another one if the fourth is reserved.

**Theorem (`allocated_of_run`).** In every interleaving of any number of calls, all results are
well-formed and pairwise different, and the branch `Invalid IP generated` is not taken.

The proof is an induction over the run with the invariant `Allocating`:

* *bounds*: the counter is at most `65536`, and a value that a call is about to swap is below that;
* *results*: what a call has returned is made from a value below the counter (`Made`), and two calls
  have different values.

A successful swap gives the call the value of the counter itself, which no earlier call has. The
text of an address determines the value, because a decimal number has no dot (`subnet_inj`).
-/

namespace Dirigent.WorkerNode.IPManager

open Threads

/-! ## The model -/

inductive Method
  | generateSingleIP
  | generateIPMACPair
  deriving DecidableEq

/-- A call: before it loads the counter, before it swaps, or returned. -/
inductive Call
  | load (method : Method)
  | swap (method : Method) (oldValue : UInt32)
  | returnedIP (ip : String)
  | returnedPair (ip vmip : String)
  deriving DecidableEq

/-- The fields of `IPManager`, whether an error has been logged and whether the process has been
stopped by `logrus.Fatal`. -/
structure State where
  networkPrefix : String
  allocationCounter : UInt32 := 0
  invalid : Bool := false
  stopped : Bool := false
  deriving DecidableEq

def extractThirdField (counterValue : UInt32) : UInt32 := counterValue / 256

def extractFourthField (counterValue : UInt32) : UInt32 := counterValue % 256

/-- `generateRawGatewayIP` once it has its value: the two fields, and whether they are invalid. -/
def generateRawGatewayIP (val : UInt32) : (UInt32 × UInt32) × Bool :=
  let thirdField := extractThirdField val
  let fourthField := extractFourthField val
  if thirdField > 255 ∨ fourthField > 255 then ((256, 256), true)
  else ((thirdField, fourthField), false)

/-- The text `prefix.c.d`. -/
def subnet (networkPrefix : String) (c d : ℕ) : String :=
  networkPrefix ++ "." ++ toString c ++ "." ++ toString d

/-- What a call does with the two fields. -/
def finish (networkPrefix : String) (method : Method) (c d : UInt32) : Call :=
  match method with
  | .generateSingleIP =>
    if d = 0 ∨ d = 255 then .load .generateSingleIP
    else .returnedIP (subnet networkPrefix c.toNat d.toNat)
  | .generateIPMACPair =>
    .returnedPair (subnet networkPrefix c.toNat d.toNat ++ ".1")
      (subnet networkPrefix c.toNat d.toNat ++ ".2")

/-- One atomic step of a call. -/
def step (s : State) (_ : ℕ) (call : Call) (_ : Unit) : Option (State × Call × List Call) :=
  if s.stopped then none
  else
    match call with
    | .load method =>
      if s.allocationCounter ≥ 65536 then some ({ s with stopped := true }, .load method, [])
      else some (s, .swap method s.allocationCounter, [])
    | .swap method oldValue =>
      if s.allocationCounter = oldValue then
        let ((c, d), isInvalid) := generateRawGatewayIP oldValue
        some ({ s with allocationCounter := oldValue + 1, invalid := s.invalid || isInvalid },
          finish s.networkPrefix method c d, [])
      else some (s, .load method, [])
    | .returnedIP _ => none
    | .returnedPair _ _ => none

/-- Any number of concurrent calls on `NewIPManager(networkPrefix)`. -/
def calls (networkPrefix : String) : Threads State Call Method Unit where
  init s := s = { networkPrefix := networkPrefix }
  call method := some (.load method)
  step := step

/-- **What the calls return.** -/
structure Allocated (networkPrefix : String) (s : Pool State Call) : Prop where
  single : ∀ ip, .returnedIP ip ∈ s.threads →
    ∃ c d, ip = subnet networkPrefix c d ∧ c ≤ 255 ∧ 1 ≤ d ∧ d ≤ 254
  single_ne : ∀ (i j : ℕ) ip ip', i ≠ j → s.threads[i]? = some (Call.returnedIP ip) →
    s.threads[j]? = some (Call.returnedIP ip') → ip ≠ ip'
  pair : ∀ ip vmip, .returnedPair ip vmip ∈ s.threads →
    ∃ c d, ip = subnet networkPrefix c d ++ ".1" ∧ vmip = subnet networkPrefix c d ++ ".2" ∧
      c ≤ 255 ∧ d ≤ 255
  pair_ne : ∀ (i j : ℕ) ip vmip ip' vmip', i ≠ j →
    s.threads[i]? = some (Call.returnedPair ip vmip) →
    s.threads[j]? = some (Call.returnedPair ip' vmip') → (ip, vmip) ≠ (ip', vmip') ∧
      ∀ net net', ip = net ++ ".1" → ip' = net' ++ ".1" → net ≠ net'
  valid : s.shared.invalid = false

/-! ## The text of an address -/

theorem dot_notMem (n : ℕ) : '.' ∉ (toString n).toList := by
  intro h
  rw [Nat.toString_eq_repr, Nat.toList_repr] at h
  exact absurd (Nat.isDigit_of_mem_toDigits (by decide) (by decide) h) (by decide)

theorem toString_inj {m n : ℕ} (h : (toString m).toList = (toString n).toList) : m = n := by
  rw [Nat.toString_eq_repr, Nat.toString_eq_repr, Nat.toList_repr, Nat.toList_repr] at h
  have hread := congrArg (fun digits => Nat.ofDigitChars 10 digits 0) h
  simpa using hread

/-- **The text determines the fields.** -/
theorem subnet_inj {networkPrefix : String} {c d c' d' : ℕ}
    (h : subnet networkPrefix c d = subnet networkPrefix c' d') : c = c' ∧ d = d' := by
  have hdot : (".").toList = ['.'] := rfl
  have hchars := String.toList_inj.2 h
  simp only [subnet, String.toList_append, hdot, List.append_assoc, List.append_cancel_left_eq,
    List.nil_append, List.cons_append, List.cons.injEq, true_and] at hchars
  rw [List.append_cons_inj_of_notMem (dot_notMem c) (dot_notMem d)] at hchars
  obtain ⟨hc, -, hd⟩ := hchars
  exact ⟨toString_inj hc, toString_inj hd⟩

theorem value_inj {networkPrefix : String} {v w : ℕ}
    (h : subnet networkPrefix (v / 256) (v % 256) = subnet networkPrefix (w / 256) (w % 256)) :
    v = w := by
  obtain ⟨hdiv, hmod⟩ := subnet_inj h
  omega

/-! ## The invariant -/

/-- The call has returned what the value `v` gives. -/
inductive Made (networkPrefix : String) (v : ℕ) : Call → Prop
  | single : 1 ≤ v % 256 → v % 256 ≤ 254 →
      Made networkPrefix v (.returnedIP (subnet networkPrefix (v / 256) (v % 256)))
  | pair : Made networkPrefix v (.returnedPair (subnet networkPrefix (v / 256) (v % 256) ++ ".1")
      (subnet networkPrefix (v / 256) (v % 256) ++ ".2"))

/-- A call is under way, or has been given a value. -/
def Sane (networkPrefix : String) (counter : ℕ) (call : Call) : Prop :=
  (∃ method, call = .load method) ∨
    (∃ method oldValue, call = .swap method oldValue ∧ oldValue.toNat < 65536) ∨
      ∃ v < counter, Made networkPrefix v call

structure Allocating (networkPrefix : String) (s : Pool State Call) : Prop where
  same : s.shared.networkPrefix = networkPrefix
  counter : s.shared.allocationCounter.toNat ≤ 65536
  valid : s.shared.invalid = false
  sane : ∀ call ∈ s.threads, Sane networkPrefix s.shared.allocationCounter.toNat call
  ne : ∀ (i j : ℕ) call call' v w, i ≠ j → s.threads[i]? = some call → s.threads[j]? = some call' →
    Made networkPrefix v call → Made networkPrefix w call' → v ≠ w

variable {networkPrefix : String} {s s' : Pool State Call} {call : Call} {v w : ℕ}

theorem Made.unique (hv : Made networkPrefix v call) (hw : Made networkPrefix w call) : v = w := by
  cases hv with
  | single =>
    generalize hip : subnet networkPrefix (v / 256) (v % 256) = ip at hw
    cases hw
    exact value_inj hip
  | pair =>
    generalize hip : subnet networkPrefix (v / 256) (v % 256) ++ ".1" = ip at hw
    generalize subnet networkPrefix (v / 256) (v % 256) ++ ".2" = vmip at hw
    cases hw
    exact value_inj ((String.append_left_inj ".1").1 hip)

theorem Sane.mono {m n : ℕ} (h : Sane networkPrefix m call) (hle : m ≤ n) :
    Sane networkPrefix n call := by
  rcases h with h | h | ⟨v, hv, hmade⟩
  · exact Or.inl h
  · exact Or.inr (Or.inl h)
  · exact Or.inr (Or.inr ⟨v, hv.trans_le hle, hmade⟩)

theorem Sane.lt {n : ℕ} (h : Sane networkPrefix n call) (hv : Made networkPrefix v call) :
    v < n := by
  rcases h with ⟨method, rfl⟩ | ⟨method, oldValue, rfl, -⟩ | ⟨w, hw, hmade⟩
  · cases hv
  · cases hv
  · rw [hv.unique hmade]
    exact hw

/-- **The fields of a value in range** are valid. -/
theorem generateRawGatewayIP_eq {val : UInt32} (h : val.toNat < 65536) :
    generateRawGatewayIP val = ((val / 256, val % 256), false) := by
  have hthird : (val / 256).toNat = val.toNat / 256 := UInt32.toNat_div _ _
  have hfourth : (val % 256).toNat = val.toNat % 256 := UInt32.toNat_mod _ _
  have hmax : (255 : UInt32).toNat = 255 := rfl
  refine if_neg ?_
  rintro (hgt | hgt)
  · have hlt := UInt32.lt_iff_toNat_lt.1 hgt
    rw [extractThirdField] at hlt
    omega
  · have hlt := UInt32.lt_iff_toNat_lt.1 hgt
    rw [extractFourthField] at hlt
    omega

theorem finish_cases (networkPrefix : String) (method : Method) (val : UInt32) :
    finish networkPrefix method (val / 256) (val % 256) = .load .generateSingleIP ∨
      Made networkPrefix val.toNat (finish networkPrefix method (val / 256) (val % 256)) := by
  have hthird : (val / 256).toNat = val.toNat / 256 := UInt32.toNat_div _ _
  have hfourth : (val % 256).toNat = val.toNat % 256 := UInt32.toNat_mod _ _
  cases method with
  | generateSingleIP =>
    rw [finish]
    split_ifs with hreserved
    · exact Or.inl rfl
    · right
      rw [not_or, ← UInt32.toNat_inj, ← UInt32.toNat_inj, hfourth] at hreserved
      rw [hthird, hfourth]
      have h₀ : val.toNat % 256 ≠ 0 := hreserved.1
      have h₁ : val.toNat % 256 ≠ 255 := hreserved.2
      exact .single (by omega) (by omega)
  | generateIPMACPair =>
    right
    rw [finish, hthird, hfourth]
    exact .pair

/-- **A call moves on**, to something that no earlier value gives. -/
theorem Allocating.advance {i : ℕ} {call' : Call} {σ : State} (h : Allocating networkPrefix s)
    (hcall : s.threads[i]? = some call) (hsame : σ.networkPrefix = networkPrefix)
    (hcounter : σ.allocationCounter.toNat ≤ 65536) (hvalid : σ.invalid = false)
    (hle : s.shared.allocationCounter.toNat ≤ σ.allocationCounter.toNat)
    (hsane : Sane networkPrefix σ.allocationCounter.toNat call')
    (hnew : ∀ v, Made networkPrefix v call' → s.shared.allocationCounter.toNat ≤ v) :
    Allocating networkPrefix ⟨σ, advance s.threads i call' []⟩ := by
  -- an earlier result has a smaller value
  have hold : ∀ (j : ℕ) call v, s.threads[j]? = some call → Made networkPrefix v call →
      v < s.shared.allocationCounter.toNat := fun j call v hj hv =>
    (h.sane call (List.mem_of_getElem? hj)).lt hv
  refine ⟨hsame, hcounter, hvalid, ?_, ?_⟩
  · intro u hu
    rcases mem_of_mem_advance hu with rfl | hsame | hu
    · exact hsane
    · exact (h.sane u hsame).mono hle
    · simp at hu
  · intro j k u u' v w hne hj hk hv hw
    rcases getElem?_advance hcall hj with ⟨hji, rfl⟩ | ⟨-, hj₀⟩ | ⟨-, hu⟩
    · rcases getElem?_advance hcall hk with ⟨hki, -⟩ | ⟨-, hk₀⟩ | ⟨-, hu⟩
      · exact absurd (hji.trans hki.symm) hne
      · have h₁ := hnew v hv
        have h₂ := hold k u' w hk₀ hw
        omega
      · simp at hu
    · rcases getElem?_advance hcall hk with ⟨-, rfl⟩ | ⟨-, hk₀⟩ | ⟨-, hu⟩
      · have h₁ := hnew w hw
        have h₂ := hold j u v hj₀ hv
        omega
      · exact h.ne j k u u' v w hne hj₀ hk₀ hv hw
      · simp at hu
    · simp at hu

theorem Allocating.start (h : Allocating networkPrefix s) (method : Method) :
    Allocating networkPrefix ⟨s.shared, s.threads ++ [.load method]⟩ := by
  have hcases : ∀ {j : ℕ} {u : Call} {v : ℕ}, (s.threads ++ [.load method])[j]? = some u →
      Made networkPrefix v u → s.threads[j]? = some u := by
    intro j u v hj hv
    rw [List.getElem?_append] at hj
    split_ifs at hj with hlt
    · exact hj
    · rw [List.getElem?_singleton] at hj
      split_ifs at hj
      cases hj
      cases hv
  refine ⟨h.same, h.counter, h.valid, ?_, ?_⟩
  · intro u hu
    rcases List.mem_append.1 hu with hu | hu
    · exact h.sane u hu
    · rw [List.mem_singleton] at hu
      exact Or.inl ⟨method, hu⟩
  · intro j k u u' v w hne hj hk hv hw
    exact h.ne j k u u' v w hne (hcases hj hv) (hcases hk hw) hv hw

theorem Allocating.step {i : ℕ} {call' : Call} {σ : State} {new : List Call}
    (h : Allocating networkPrefix s)
    (hcall : s.threads[i]? = some call) (hstep : step s.shared i call () = some (σ, call', new)) :
    Allocating networkPrefix ⟨σ, Threads.advance s.threads i call' new⟩ := by
  have hsane := h.sane call (List.mem_of_getElem? hcall)
  have hrunning : ¬ s.shared.stopped = true := by
    intro hstopped
    rw [step.eq_def, if_pos hstopped] at hstep
    cases hstep
  rw [step.eq_def, if_neg hrunning] at hstep
  cases call with
  | load method =>
    dsimp only at hstep
    split_ifs at hstep with hfull
    · cases hstep
      exact h.advance hcall h.same h.counter h.valid le_rfl (Or.inl ⟨method, rfl⟩) fun v hv => by
        cases hv
    · cases hstep
      have hlt : s.shared.allocationCounter.toNat < 65536 :=
        UInt32.lt_iff_toNat_lt.1 (UInt32.not_le.1 hfull)
      exact h.advance hcall h.same h.counter h.valid le_rfl
        (Or.inr (Or.inl ⟨method, _, rfl, hlt⟩)) fun v hv => by cases hv
  | swap method oldValue =>
    dsimp only at hstep
    split_ifs at hstep with heq
    · -- the call gets the value of the counter
      have hlt : oldValue.toNat < 65536 := by
        rcases hsane with ⟨_, hload⟩ | ⟨_, _, hswap, hlt⟩ | ⟨v, _, hmade⟩
        · cases hload
        · cases hswap
          exact hlt
        · cases hmade
      have hnext : (oldValue + 1).toNat = oldValue.toNat + 1 := by
        have hone : (1 : UInt32).toNat = 1 := rfl
        rw [UInt32.toNat_add, hone, Nat.mod_eq_of_lt (by omega)]
      rw [generateRawGatewayIP_eq hlt] at hstep
      cases hstep
      have hcounter : s.shared.allocationCounter.toNat = oldValue.toNat := by rw [heq]
      refine h.advance hcall h.same ?_ ?_ ?_ ?_ ?_
      · show (oldValue + 1).toNat ≤ 65536
        omega
      · show (s.shared.invalid || false) = false
        rw [h.valid]
        rfl
      · show s.shared.allocationCounter.toNat ≤ (oldValue + 1).toNat
        omega
      · show Sane networkPrefix (oldValue + 1).toNat _
        rw [h.same]
        rcases finish_cases networkPrefix method oldValue with hload | hmade
        · rw [hload]
          exact Or.inl ⟨_, rfl⟩
        · exact Or.inr (Or.inr ⟨oldValue.toNat, by omega, hmade⟩)
      · intro v hv
        rw [h.same] at hv
        rcases finish_cases networkPrefix method oldValue with hload | hmade
        · rw [hload] at hv
          cases hv
        · rw [hv.unique hmade]
          exact hcounter.le
    · cases hstep
      exact h.advance hcall h.same h.counter h.valid le_rfl (Or.inl ⟨method, rfl⟩) fun v hv => by
        cases hv
  | returnedIP ip | returnedPair ip vmip => cases hstep

/-! ## The result -/

theorem Allocating.allocated (h : Allocating networkPrefix s) : Allocated networkPrefix s := by
  have hcounter := h.counter
  have hmade : ∀ call ∈ s.threads, (∀ method, call ≠ .load method) →
      (∀ method oldValue, call ≠ .swap method oldValue) →
        ∃ v < 65536, Made networkPrefix v call := by
    intro call hcall hload hswap
    rcases h.sane call hcall with ⟨method, heq⟩ | ⟨method, oldValue, heq, -⟩ | ⟨v, hv, hmade⟩
    · exact absurd heq (hload method)
    · exact absurd heq (hswap method oldValue)
    · exact ⟨v, by omega, hmade⟩
  constructor
  case single =>
    intro ip hip
    obtain ⟨v, hv, hmade⟩ := hmade _ hip (by simp) (by simp)
    cases hmade with
    | single h₁ h₂ => exact ⟨v / 256, v % 256, rfl, by omega, h₁, h₂⟩
  case single_ne =>
    intro i j ip ip' hne hi hj heq
    subst heq
    obtain ⟨v, -, hmade⟩ := hmade _ (List.mem_of_getElem? hi) (by simp) (by simp)
    exact h.ne i j _ _ v v hne hi hj hmade hmade rfl
  case pair =>
    intro ip vmip hip
    obtain ⟨v, hv, hmade⟩ := hmade _ hip (by simp) (by simp)
    cases hmade with
    | pair => exact ⟨v / 256, v % 256, rfl, rfl, by omega, by omega⟩
  case pair_ne =>
    intro i j ip vmip ip' vmip' hne hi hj
    obtain ⟨v, -, hv⟩ := hmade _ (List.mem_of_getElem? hi) (by simp) (by simp)
    obtain ⟨w, -, hw⟩ := hmade _ (List.mem_of_getElem? hj) (by simp) (by simp)
    have hvw := h.ne i j _ _ v w hne hi hj hv hw
    have hip : ip ≠ ip' := by
      intro heq
      cases hv
      cases hw
      exact hvw (value_inj ((String.append_left_inj ".1").1 heq))
    refine ⟨fun heq => hip (Prod.mk.inj heq).1, ?_⟩
    intro net net' hnet hnet' heq
    rw [hnet, hnet', heq] at hip
    exact hip rfl
  case valid => exact h.valid

/-- **Address allocation.** In every interleaving the results are well-formed and different. -/
theorem allocated_of_run {tr : List (Machine.Step (Pool State Call) (Threads.Event Method Unit))}
    (hrun : (calls networkPrefix).machine.Run tr s) : Allocated networkPrefix s := by
  refine Allocating.allocated (hrun.invariant_state (I := Allocating networkPrefix) ?_ ?_)
  · rintro ⟨shared, threads⟩ ⟨hinit, hthreads⟩
    dsimp only at hinit hthreads
    subst hinit hthreads
    exact ⟨rfl, Nat.zero_le _, rfl, by simp, by simp⟩
  · intro s e s' hinv hnext
    rcases Threads.next_cases hnext with ⟨method, call, -, hcall, rfl⟩ |
      ⟨i, _, call, σ, call', new, -, hcall, hstep, rfl⟩
    · cases hcall
      exact hinv.start method
    · exact hinv.step hcall hstep

/-- Two calls that load the counter at the same time: the second swap fails. -/
theorem allocated_of_race :
    ∃ tr s, (calls "10.0").machine.Run tr s ∧
      s.threads = [.returnedPair "10.0.0.0.1" "10.0.0.0.2",
        .returnedPair "10.0.0.1.1" "10.0.0.1.2"] ∧ Allocated "10.0" s := by
  obtain ⟨tr, s, hrun, hthreads⟩ := Machine.exists_run_of_play (M := (calls "10.0").machine)
    (P := fun _ s => s.threads =
      [.returnedPair "10.0.0.0.1" "10.0.0.0.2", .returnedPair "10.0.0.1.1" "10.0.0.1.2"])
    [.start .generateIPMACPair, .start .generateIPMACPair, .run 0 (), .run 1 (),
      .run 0 (), .run 1 (),
      .run 1 (), .run 1 ()] (s := ⟨{ networkPrefix := "10.0" }, []⟩) ⟨rfl, rfl⟩ (by decide +kernel)
  exact ⟨tr, s, hrun, hthreads, allocated_of_run hrun⟩

end Dirigent.WorkerNode.IPManager
