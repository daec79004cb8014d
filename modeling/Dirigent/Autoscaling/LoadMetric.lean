import Dirigent.Machine
import Mathlib.Data.List.AList
import Mathlib.Data.BitVec

/-!
# The load metric of a service

The autoscaler of a service works with `cachedScalingMetric`, the requests in flight summed over all
data planes. A data plane reports under the name it has generated for itself, and the metric is
adjusted by what the report changes. When a data plane is deregistered, its part should go.

* `LoadMetric` — the metric with what each data plane has reported.
* `calls` — the machine of `RegisterDataplane`, `OnMetricsReceive` and `DeregisterDataplane`, each
  taking effect at once.
* `RemovesWhatItAdded` — the condition: what is removed, under the address of the data plane, is
  what was added under its name.
* `Counted` — the invariant, and **`countsLive`**: under the condition the metric counts the data
  planes that are registered, and nothing else.
-/

namespace Dirigent.Autoscaling

/-- The part of `AutoscalingMetadata` that reports change. -/
structure LoadMetric where
  inflightRequestsPerDataPlane : AList fun _ : String => BitVec 32 := ∅
  cachedScalingMetric : BitVec 32 := 0

namespace LoadMetric

/-- A read of `inflightRequestsPerDataPlane`, which gives `0` where there is no entry. -/
def inflight (m : LoadMetric) (dataplaneName : String) : BitVec 32 :=
  (m.inflightRequestsPerDataPlane.lookup dataplaneName).getD 0

/-- `RemoveDataplane` -/
def removeDataplane (m : LoadMetric) (dataplaneName : String) : LoadMetric where
  cachedScalingMetric := m.cachedScalingMetric + -m.inflight dataplaneName
  inflightRequestsPerDataPlane := m.inflightRequestsPerDataPlane.erase dataplaneName

/-- `SetCachedScalingMetric` -/
def setCachedScalingMetric (m : LoadMetric) (dataplaneName : String)
    (inflightRequests : BitVec 32) : LoadMetric where
  cachedScalingMetric := m.cachedScalingMetric + (inflightRequests - m.inflight dataplaneName)
  inflightRequestsPerDataPlane :=
    m.inflightRequestsPerDataPlane.insert dataplaneName inflightRequests

variable {m : LoadMetric} {name other : String} {n : BitVec 32}

@[simp] theorem inflight_new : ({} : LoadMetric).inflight name = 0 := rfl

theorem inflight_removeDataplane :
    (m.removeDataplane name).inflight other = if other = name then 0 else m.inflight other := by
  unfold inflight removeDataplane
  split_ifs with h
  · subst h
    simp
  · simp [AList.lookup_erase_ne h]

theorem inflight_setCachedScalingMetric :
    (m.setCachedScalingMetric name n).inflight other =
      if other = name then n else m.inflight other := by
  unfold inflight setCachedScalingMetric
  split_ifs with h
  · subst h
    simp
  · simp [AList.lookup_insert_ne h]

end LoadMetric

/-! ## Calls -/

/-- The keys of `DataPlaneConnections`, and the metric of each service in `SIStorage`. -/
structure Registry where
  dataPlaneConnections : Finset String
  siStorage : String → Option LoadMetric

/-- The calls. A data plane is known by its address; its reports go under its name. For the calls
that talk to the persistence layer and to data planes it is said whether that succeeds. -/
inductive Call
  | registerDataplane (ip : String) (ok : Bool)
  | onMetricsReceive (ip serviceName : String) (inflightRequests : BitVec 32)
  | deregisterDataplane (ip : String) (ok : Bool)

/-- What a call does, where the data plane at `ip` has the name `dataplaneID ip`. -/
def call (dataplaneID : String → String) (s : Registry) : Call → Registry
  | .registerDataplane ip ok =>
    if ip ∈ s.dataPlaneConnections then s
    else if ok then { s with dataPlaneConnections := insert ip s.dataPlaneConnections }
    else { s with dataPlaneConnections := s.dataPlaneConnections.erase ip }
  | .onMetricsReceive ip serviceName inflightRequests =>
    { s with
      siStorage := Function.update s.siStorage serviceName ((s.siStorage serviceName).map fun m =>
        m.setCachedScalingMetric (dataplaneID ip) inflightRequests) }
  | .deregisterDataplane ip ok =>
    if ip ∈ s.dataPlaneConnections ∧ ok then
      { dataPlaneConnections := s.dataPlaneConnections.erase ip
        siStorage := fun service => (s.siStorage service).map fun m => m.removeDataplane ip }
    else s

/-- Any calls in any order, on services that are new. -/
def calls (dataplaneID : String → String) : Machine Registry Call where
  init s := s.dataPlaneConnections = ∅ ∧ ∀ service m, s.siStorage service = some m → m = {}
  next s e := some (call dataplaneID s e)

abbrev History := List (Machine.Step Registry Call)

/-- The last value that the data plane at `ip` reported for the service since it was registered. -/
def lastReport (service ip : String) : History → BitVec 32
  | [] => 0
  | st :: tr =>
    match st.event with
    | .onMetricsReceive ip' service' n =>
      if ip' = ip ∧ service' = service then n else lastReport service ip tr
    | .deregisterDataplane ip' ok => if ip' = ip ∧ ok then 0 else lastReport service ip tr
    | .registerDataplane _ _ => lastReport service ip tr

theorem lastReport_onMetricsReceive {service service' ip ip' : String} {n : BitVec 32}
    {s s' : Registry} {tr : History} :
    lastReport service ip (⟨s, .onMetricsReceive ip' service' n, s'⟩ :: tr) =
      if ip' = ip ∧ service' = service then n else lastReport service ip tr := rfl

theorem lastReport_deregisterDataplane {service ip ip' : String} {ok : Bool} {s s' : Registry}
    {tr : History} : lastReport service ip (⟨s, .deregisterDataplane ip' ok, s'⟩ :: tr) =
      if ip' = ip ∧ ok then 0 else lastReport service ip tr := rfl

/-- Every service's metric is the sum of the last reports of the registered data planes. -/
def CountsLive (tr : History) (s : Registry) : Prop :=
  ∀ service m, s.siStorage service = some m →
    m.cachedScalingMetric = ∑ ip ∈ s.dataPlaneConnections, lastReport service ip tr

/-- The condition: registered data planes report, and a data plane that is deregistered has its own
address as its name, or has last reported `0` for every service, and nobody has reported under its
address. -/
def RemovesWhatItAdded (dataplaneID : String → String) (st : Machine.Step Registry Call) : Prop :=
  match st.event with
  | .registerDataplane _ _ => True
  | .onMetricsReceive ip _ _ => ip ∈ st.src.dataPlaneConnections
  | .deregisterDataplane ip _ => dataplaneID ip = ip ∨
      ∀ service m, st.src.siStorage service = some m →
        m.inflight (dataplaneID ip) = 0 ∧ m.inflight ip = 0

/-! ## The metric counts the registered data planes -/

/-- What the metric of a service is made of. -/
structure Counted (dataplaneID : String → String) (tr : History) (s : Registry) : Prop where
  cached : ∀ service m, s.siStorage service = some m →
    m.cachedScalingMetric = ∑ ip ∈ s.dataPlaneConnections, m.inflight (dataplaneID ip)
  last : ∀ service m, s.siStorage service = some m →
    ∀ ip, m.inflight (dataplaneID ip) = lastReport service ip tr
  silent : ∀ service, ∀ ip ∉ s.dataPlaneConnections, lastReport service ip tr = 0

variable {dataplaneID : String → String} {tr : History} {s : Registry} {ip : String}

theorem Counted.registerDataplane (h : Counted dataplaneID tr s) (ok : Bool) (s' : Registry) :
    Counted dataplaneID (⟨s, .registerDataplane ip ok, s'⟩ :: tr)
      (call dataplaneID s (.registerDataplane ip ok)) := by
  simp only [call]
  split_ifs with hmem hok
  · exact ⟨h.cached, h.last, h.silent⟩
  · refine ⟨fun service m hm => ?_, h.last, fun service ip' hip' => ?_⟩
    · -- the new data plane has not reported
      rw [Finset.sum_insert hmem, h.last service m hm ip, h.silent service ip hmem, zero_add]
      exact h.cached service m hm
    · exact h.silent service ip' fun hip => hip' (Finset.mem_insert_of_mem hip)
  · rw [Finset.erase_eq_of_notMem hmem]
    exact ⟨h.cached, h.last, h.silent⟩

theorem Counted.onMetricsReceive (hid : Function.Injective dataplaneID)
    (h : Counted dataplaneID tr s)
    (hip : ip ∈ s.dataPlaneConnections) (service : String) (n : BitVec 32) (s' : Registry) :
    Counted dataplaneID (⟨s, .onMetricsReceive ip service n, s'⟩ :: tr)
      (call dataplaneID s (.onMetricsReceive ip service n)) := by
  refine ⟨fun service' m' hm' => ?_, fun service' m' hm' ip' => ?_, fun service' ip' hip' => ?_⟩
  · by_cases hs : service' = service
    · subst hs
      simp only [call, Function.update_self, Option.map_eq_some_iff] at hm'
      obtain ⟨m, hm, rfl⟩ := hm'
      have hothers : ∀ j ∈ s.dataPlaneConnections.erase ip,
          (m.setCachedScalingMetric (dataplaneID ip) n).inflight (dataplaneID j) =
            m.inflight (dataplaneID j) := by
        intro j hj
        rw [LoadMetric.inflight_setCachedScalingMetric, if_neg]
        exact fun heq => Finset.ne_of_mem_erase hj (hid heq)
      change m.cachedScalingMetric + (n - m.inflight (dataplaneID ip)) =
        ∑ j ∈ s.dataPlaneConnections, _
      rw [h.cached _ m hm, ← Finset.add_sum_erase _ _ hip, ← Finset.add_sum_erase _ _ hip,
        Finset.sum_congr rfl hothers, LoadMetric.inflight_setCachedScalingMetric, if_pos rfl]
      ring
    · simp only [call, Function.update_of_ne hs] at hm'
      exact h.cached service' m' hm'
  · by_cases hs : service' = service
    · subst hs
      simp only [call, Function.update_self, Option.map_eq_some_iff] at hm'
      obtain ⟨m, hm, rfl⟩ := hm'
      rw [LoadMetric.inflight_setCachedScalingMetric, lastReport_onMetricsReceive]
      by_cases hj : ip' = ip
      · subst hj
        simp
      · rw [if_neg fun heq => hj (hid heq), if_neg fun heq => hj heq.1.symm]
        exact h.last _ m hm ip'
    · simp only [call, Function.update_of_ne hs] at hm'
      rw [lastReport_onMetricsReceive, if_neg fun heq => hs heq.2.symm]
      exact h.last service' m' hm' ip'
  · have hne : ip ≠ ip' := by
      rintro rfl
      exact hip' hip
    rw [lastReport_onMetricsReceive, if_neg fun heq => hne heq.1]
    exact h.silent service' ip' hip'

theorem Counted.deregisterDataplane (hid : Function.Injective dataplaneID)
    (h : Counted dataplaneID tr s) (ok : Bool) (s' : Registry)
    (hremoves : dataplaneID ip = ip ∨ ∀ service m, s.siStorage service = some m →
      m.inflight (dataplaneID ip) = 0 ∧ m.inflight ip = 0) :
    Counted dataplaneID (⟨s, .deregisterDataplane ip ok, s'⟩ :: tr)
      (call dataplaneID s (.deregisterDataplane ip ok)) := by
  -- what is left of each entry
  have hleft : ∀ service m, s.siStorage service = some m → ∀ j,
      (m.removeDataplane ip).inflight (dataplaneID j) =
        if j = ip then 0 else m.inflight (dataplaneID j) := by
    intro service m hm j
    rw [LoadMetric.inflight_removeDataplane]
    rcases hremoves with hown | hzero
    · by_cases hj : j = ip
      · rw [if_pos hj, if_pos (hj ▸ hown)]
      · rw [if_neg hj, if_neg fun heq => hj (hid (heq.trans hown.symm))]
    · obtain ⟨hname, haddress⟩ := hzero service m hm
      split_ifs with h₁ h₂ h₂
      · rfl
      · exact (h₁ ▸ haddress).symm
      · exact h₂ ▸ hname
      · rfl
  -- and what is taken from the metric
  have htaken : ∀ service m, s.siStorage service = some m →
      m.inflight ip = m.inflight (dataplaneID ip) := by
    intro service m hm
    rcases hremoves with hown | hzero
    · rw [hown]
    · rw [(hzero service m hm).1, (hzero service m hm).2]
  simp only [call]
  split_ifs with hreg
  · obtain ⟨hip, rfl⟩ := hreg
    refine ⟨fun service m' hm' => ?_, fun service m' hm' j => ?_, fun service j hj => ?_⟩
    · obtain ⟨m, hm, rfl⟩ := Option.map_eq_some_iff.1 hm'
      have hothers : ∀ j ∈ s.dataPlaneConnections.erase ip,
          (m.removeDataplane ip).inflight (dataplaneID j) = m.inflight (dataplaneID j) := by
        intro j hj
        rw [hleft service m hm, if_neg (Finset.ne_of_mem_erase hj)]
      change m.cachedScalingMetric + -m.inflight ip = ∑ j ∈ s.dataPlaneConnections.erase ip, _
      rw [Finset.sum_congr rfl hothers, h.cached service m hm, htaken service m hm,
        ← Finset.add_sum_erase _ _ hip]
      ring
    · obtain ⟨m, hm, rfl⟩ := Option.map_eq_some_iff.1 hm'
      rw [hleft service m hm, lastReport_deregisterDataplane]
      by_cases hj : j = ip
      · simp [hj]
      · rw [if_neg hj, if_neg fun heq => hj heq.1.symm]
        exact h.last service m hm j
    · rw [lastReport_deregisterDataplane]
      split_ifs with heq
      · rfl
      · refine h.silent service j fun hmem => hj (Finset.mem_erase.2 ⟨?_, hmem⟩)
        exact fun hji => heq ⟨hji.symm, rfl⟩
  · have hsame : ∀ service j, lastReport service j (⟨s, .deregisterDataplane ip ok, s'⟩ :: tr) =
        lastReport service j tr := by
      intro service j
      rw [lastReport_deregisterDataplane]
      split_ifs with heq
      · -- who was not registered has not reported
        obtain ⟨rfl, hok⟩ := heq
        exact (h.silent service ip fun hip => hreg ⟨hip, hok⟩).symm
      · rfl
    refine ⟨h.cached, fun service m hm j => ?_, fun service j hj => ?_⟩
    · rw [hsame]
      exact h.last service m hm j
    · rw [hsame]
      exact h.silent service j hj

theorem counted_of_run (hid : Function.Injective dataplaneID) (h : (calls dataplaneID).Run tr s)
    (hremoves : ∀ st ∈ tr, RemovesWhatItAdded dataplaneID st) : Counted dataplaneID tr s := by
  refine h.invariant (G := RemovesWhatItAdded dataplaneID) ?_ ?_ hremoves
  · rintro s ⟨hnone, hnew⟩
    refine ⟨fun service m hm => ?_, fun service m hm ip => ?_, fun _ _ _ => rfl⟩
    · rw [hnew service m hm, hnone]
      rfl
    · rw [hnew service m hm]
      rfl
  · intro tr s e s' _ hcounted hst hnext
    obtain rfl := Option.some.inj hnext
    cases e with
    | registerDataplane ip ok => exact hcounted.registerDataplane ok _
    | onMetricsReceive ip service n => exact hcounted.onMetricsReceive hid hst service n _
    | deregisterDataplane ip ok => exact hcounted.deregisterDataplane hid ok _ hst

/-- **The metric counts the registered data planes**, and nothing else, in every run that meets the
condition. -/
theorem countsLive (hid : Function.Injective dataplaneID) (h : (calls dataplaneID).Run tr s)
    (hremoves : ∀ st ∈ tr, RemovesWhatItAdded dataplaneID st) : CountsLive tr s := by
  intro service m hm
  have hcounted := counted_of_run hid h hremoves
  rw [hcounted.cached service m hm]
  exact Finset.sum_congr rfl fun ip _ => hcounted.last service m hm ip

/-! ## Two histories -/

/-- A name as `NewDataplane` makes it, with the host's name and a number. -/
def generatedID (ip : String) : String := "host-" ++ ip

theorem generatedID_injective : Function.Injective generatedID :=
  fun _ _ h => (String.append_right_inj _).1 h

/-- One service, and no data plane. -/
def oneService : Registry := ⟨∅, fun service => if service = "f" then some {} else none⟩

theorem init_oneService : (calls generatedID).init oneService := by
  refine ⟨rfl, fun service m hm => ?_⟩
  simp only [oneService, Option.ite_none_right_eq_some, Option.some.injEq] at hm
  exact hm.2.symm

/-- A data plane reports three requests, then none, and is deregistered. -/
theorem countsLive_of_idle : ∃ tr s, (calls generatedID).Run tr s ∧ tr.length = 4 ∧
    s.dataPlaneConnections = ∅ ∧ CountsLive tr s := by
  have h₁ := (Machine.Run.init init_oneService).step (e := .registerDataplane "10.0.0.1" true) rfl
  have h₂ := h₁.step (e := .onMetricsReceive "10.0.0.1" "f" 3) rfl
  have h₃ := h₂.step (e := .onMetricsReceive "10.0.0.1" "f" 0) rfl
  have h₄ := h₃.step (e := .deregisterDataplane "10.0.0.1" true) rfl
  refine ⟨_, _, h₄, rfl, rfl, countsLive generatedID_injective h₄ fun st hst => ?_⟩
  simp only [List.mem_cons, List.not_mem_nil, or_false] at hst
  rcases hst with rfl | rfl | rfl | rfl
  · refine .inr fun service m hm => ?_
    by_cases hf : service = "f"
    · subst hf
      cases hm
      exact ⟨rfl, rfl⟩
    · simp [call, oneService, hf] at hm
  · exact Finset.mem_insert_self _ _
  · exact Finset.mem_insert_self _ _
  · trivial

/-- A data plane reports three requests and is deregistered: they stay in the metric. -/
theorem exists_not_countsLive : ∃ tr s, (calls generatedID).Run tr s ∧
    s.dataPlaneConnections = ∅ ∧ ¬ CountsLive tr s := by
  have h₁ := (Machine.Run.init init_oneService).step (e := .registerDataplane "10.0.0.1" true) rfl
  have h₂ := h₁.step (e := .onMetricsReceive "10.0.0.1" "f" 3) rfl
  have h₃ := h₂.step (e := .deregisterDataplane "10.0.0.1" true) rfl
  refine ⟨_, _, h₃, rfl, fun hlive => ?_⟩
  have hthree : (3 : BitVec 32) = 0 := hlive "f" _ rfl
  exact absurd hthree (by decide)

/-! ## The metric is the sum of the reports -/

/-- A call of `SetCachedScalingMetric` or of `RemoveDataplane`. -/
inductive Report
  | set (dataplaneName : String) (inflightRequests : BitVec 32)
  | remove (dataplaneName : String)

def Report.dataplaneName : Report → String
  | .set name _ | .remove name => name

def LoadMetric.apply (m : LoadMetric) : Report → LoadMetric
  | .set name n => m.setCachedScalingMetric name n
  | .remove name => m.removeDataplane name

/-- The value that the reports leave for a name: the last one since the name was removed. -/
def lastValue (name : String) : List Report → Option (BitVec 32)
  | [] => none
  | report :: earlier =>
    if report.dataplaneName = name then
      match report with
      | .set _ n => some n
      | .remove _ => none
    else lastValue name earlier

/-- The reports, the last one first, on a new metric. -/
def LoadMetric.after (reports : List Report) : LoadMetric := reports.foldr (fun r m => m.apply r) {}

/-- The sum of the values in `inflightRequestsPerDataPlane`. -/
def LoadMetric.total (m : LoadMetric) : BitVec 32 :=
  (m.inflightRequestsPerDataPlane.entries.map Sigma.snd).sum

theorem sum_kerase (l : List (Sigma fun _ : String => BitVec 32)) (name : String) :
    ((l.kerase name).map Sigma.snd).sum = (l.map Sigma.snd).sum - (l.dlookup name).getD 0 := by
  induction l with
  | nil => simp
  | cons e l ih =>
    obtain ⟨name', n⟩ := e
    by_cases h : name = name'
    · subst h
      simp
    · rw [List.kerase_cons_ne h, List.dlookup_cons_ne _ _ h, List.map_cons, List.sum_cons, ih]
      simp [add_sub_assoc]

/-- **A report** keeps the metric the sum, and leaves the last values. -/
theorem LoadMetric.apply_spec {m : LoadMetric} {reports : List Report}
    (hsum : m.cachedScalingMetric = m.total)
    (hlookup : ∀ name, m.inflightRequestsPerDataPlane.lookup name = lastValue name reports)
    (report : Report) : (m.apply report).cachedScalingMetric = (m.apply report).total ∧
      ∀ name, (m.apply report).inflightRequestsPerDataPlane.lookup name =
        lastValue name (report :: reports) := by
  cases report with
  | set name n =>
    refine ⟨?_, fun name' => ?_⟩
    · have htotal : (m.apply (.set name n)).total = n + (m.total - m.inflight name) := by
        simp only [total, apply, setCachedScalingMetric, AList.entries_insert, List.map_cons,
          List.sum_cons, sum_kerase]
        rfl
      rw [htotal, ← hsum]
      simp only [apply, setCachedScalingMetric]
      ring
    · by_cases h : name' = name
      · subst h
        simp [apply, setCachedScalingMetric, lastValue, Report.dataplaneName]
      · simp [apply, setCachedScalingMetric, lastValue, Report.dataplaneName, Ne.symm h, h, hlookup]
  | remove name =>
    refine ⟨?_, fun name' => ?_⟩
    · have htotal : (m.apply (.remove name)).total = m.total - m.inflight name :=
        sum_kerase m.inflightRequestsPerDataPlane.entries name
      rw [htotal, ← hsum]
      exact (sub_eq_add_neg _ _).symm
    · by_cases h : name' = name
      · subst h
        simp [apply, removeDataplane, lastValue, Report.dataplaneName]
      · simp [apply, removeDataplane, lastValue, Report.dataplaneName, Ne.symm h,
          AList.lookup_erase_ne h, hlookup]

theorem LoadMetric.after_spec (reports : List Report) :
    (after reports).cachedScalingMetric = (after reports).total ∧
      ∀ name, (after reports).inflightRequestsPerDataPlane.lookup name =
        lastValue name reports := by
  induction reports with
  | nil => exact ⟨rfl, fun _ => rfl⟩
  | cons report reports ih => exact apply_spec ih.1 ih.2 report

theorem lastValue_filter (name : String) (reports : List Report) :
    lastValue name (reports.filter (·.dataplaneName = name)) = lastValue name reports := by
  induction reports with
  | nil => rfl
  | cons report reports ih =>
    by_cases h : report.dataplaneName = name
    · simp [lastValue, h]
    · simp [lastValue, h, ih]

/-- **The metric is the sum of the reports**, modulo `2 ^ 32`: of the last report under each name
since the name was removed. Only the order of the reports under each name matters. -/
theorem cachedScalingMetric_eq_sum (reports : List Report) :
    let m := LoadMetric.after reports
    m.cachedScalingMetric = m.total ∧
      (∀ name, m.inflightRequestsPerDataPlane.lookup name = lastValue name reports) ∧
      ∀ reports', (∀ name, reports'.filter (·.dataplaneName = name) =
          reports.filter (·.dataplaneName = name)) →
        (LoadMetric.after reports').cachedScalingMetric = m.cachedScalingMetric := by
  intro m
  obtain ⟨hsum, hlookup⟩ := LoadMetric.after_spec reports
  refine ⟨hsum, hlookup, fun reports' h => ?_⟩
  obtain ⟨hsum', hlookup'⟩ := LoadMetric.after_spec reports'
  have hsame : ∀ name, (LoadMetric.after reports').inflightRequestsPerDataPlane.lookup name =
      m.inflightRequestsPerDataPlane.lookup name := fun name => by
    rw [hlookup', hlookup, ← lastValue_filter, h, lastValue_filter]
  have hperm := List.lookup_ext (AList.nodupKeys _) m.inflightRequestsPerDataPlane.nodupKeys
    fun name n => iff_of_eq (congrArg (n ∈ ·) (hsame name))
  rw [hsum', hsum]
  exact (hperm.map _).sum_eq

end Dirigent.Autoscaling
