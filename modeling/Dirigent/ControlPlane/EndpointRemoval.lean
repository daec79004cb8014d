import Dirigent.ControlPlane.Scaling
import Dirigent.Solo
import Mathlib.Data.List.Perm.Basic
import Mathlib.Data.List.Perm.Subperm

/-!
# Removing endpoints

A service loses endpoints when it is scaled down and when failures are reported. Both build a set of
endpoints first and then filter the service's list by it.

- **Downscaling.** Victims are drawn one by one from a shrinking copy of the list. What has been
  drawn and what is left of the copy are together the list, up to order (`victims_perm`). As nothing
  stands twice in the list, the loop draws as many endpoints as it is asked for, or all of them, and
  the filter takes out exactly the drawn ones (`downscale_exact`).
- **Failures.** A report names sandboxes of one service. What it does is said by `Cleared`: the
  named endpoints leave the service's list and the maps of their nodes, and the scale falls by the
  number of endpoints that have left. Two reports after one another do what their names together say
  (`Cleared.trans`), so neither their order nor their repetition matters.
- **Nodes.** For a node that fails, `createWorkerNodeFailureEvents` makes one report for every
  registered service. It puts all sandboxes of the node into each of them, as
  `getServicesOnWorkerNode` does not look at the service.

Each is run alone, with every outcome of the calls, every order of the maps and every random draw.
-/

namespace Dirigent.ControlPlane

open DataPlane (EndpointInfo)
open Prog

/-! ## Eviction -/

theorem evictionPolicy_perm (draw : ℕ) {endpoints : List ℕ} (h : endpoints ≠ []) :
    ∃ e rest, evictionPolicy draw endpoints = some (e, rest) ∧ (e :: rest).Perm endpoints := by
  have hlt : draw % endpoints.length < endpoints.length :=
    Nat.mod_lt _ (List.length_pos_iff.2 h)
  refine ⟨endpoints[draw % endpoints.length], _, ?_, List.getElem_cons_eraseIdx_perm hlt⟩
  simp [evictionPolicy, hlt]

/-- **The eviction loop.** The drawn endpoints and those left of the copy are the endpoints it began
with. -/
theorem victims_perm (n : ℕ) (draws currentState toEvict : List ℕ)
    (h : (toEvict ++ currentState).Nodup) :
    ∃ rest, (victims n draws currentState toEvict ++ rest).Perm (toEvict ++ currentState) ∧
      (victims n draws currentState toEvict).length =
        toEvict.length + min n currentState.length := by
  induction n generalizing draws currentState toEvict with
  | zero => exact ⟨currentState, List.Perm.refl _, by simp [victims]⟩
  | succ n ih =>
    by_cases hcur : currentState = []
    · subst hcur
      obtain ⟨rest, hperm, hlen⟩ := ih draws.tail [] toEvict h
      exact ⟨rest, hperm, by simpa [victims, evictionPolicy] using hlen⟩
    · obtain ⟨e, newState, hpolicy, hdrawn⟩ := evictionPolicy_perm (draws.headD 0) hcur
      have hmove : (e :: toEvict ++ newState).Perm (toEvict ++ currentState) :=
        List.perm_middle.symm.trans (hdrawn.append_left toEvict)
      have hnodup := hmove.nodup_iff.2 h
      have hnew : e ∉ toEvict := fun he =>
        (List.nodup_cons.1 hnodup).1 (List.mem_append_left _ he)
      have hstep : victims (n + 1) draws currentState toEvict =
          victims n draws.tail newState (e :: toEvict) := by
        rw [victims, hpolicy]
        simp only [List.insert_of_not_mem hnew]
      obtain ⟨rest, hperm, hlen⟩ := ih draws.tail newState (e :: toEvict) hnodup
      have hcount := hdrawn.length_eq
      rw [hstep]
      refine ⟨rest, hperm.trans hmove, ?_⟩
      simp only [List.length_cons] at hlen hcount
      omega

theorem append_excludeEndpoints_perm {endpoints toExclude : List ℕ} (h : endpoints.Nodup)
    (hex : toExclude.Nodup) (hsub : ∀ e ∈ toExclude, e ∈ endpoints) :
    (toExclude ++ excludeEndpoints endpoints toExclude).Perm endpoints := by
  have hout : (endpoints.filter (· ∈ toExclude)).Perm toExclude := by
    refine (List.perm_ext_iff_of_nodup (h.filter _) hex).2 fun e => ?_
    simpa using hsub e
  have hsplit := List.filter_append_perm (fun e => decide (e ∈ toExclude)) endpoints
  refine (hout.symm.append_right _).trans ?_
  simpa [excludeEndpoints] using hsplit

/-- `doDownscaling` up to its goroutine, with the random draws: the endpoints that are evicted, and
those that are left. The difference is one of machine integers. -/
def downscale (actualScale desiredCount : Int64) (draws endpoints : List ℕ) : List ℕ × List ℕ :=
  let toEvict := victims (actualScale - desiredCount).toInt.toNat draws endpoints []
  (toEvict, excludeEndpoints endpoints toEvict)

theorem toInt_sub_of_fits {a d : Int64} (hlow : -2 ^ 63 ≤ a.toInt - d.toInt)
    (hhigh : a.toInt - d.toInt < 2 ^ 63) : (a - d).toInt = a.toInt - d.toInt := by
  rw [Int64.toInt_sub]
  exact Int.bmod_eq_of_le (by omega) (by omega)

/-- **Downscaling evicts exactly.** -/
theorem downscale_exact (actualScale desiredCount : Int64) (draws endpoints : List ℕ)
    (h : endpoints.Nodup) :
    (let toEvict := (downscale actualScale desiredCount draws endpoints).1
    let left := (downscale actualScale desiredCount draws endpoints).2
    toEvict.Nodup ∧ (∀ e ∈ toEvict, e ∈ endpoints) ∧
      toEvict.length =
        min (max (actualScale - desiredCount).toInt 0).toNat endpoints.length ∧
      (-2 ^ 63 ≤ actualScale.toInt - desiredCount.toInt →
        actualScale.toInt - desiredCount.toInt < 2 ^ 63 →
        toEvict.length =
          min (max (actualScale.toInt - desiredCount.toInt) 0).toNat endpoints.length) ∧
      left = endpoints.filter (· ∉ toEvict) ∧ (toEvict ++ left).Perm endpoints) := by
  intro toEvict left
  obtain ⟨rest, hperm, hlen⟩ :=
    victims_perm (actualScale - desiredCount).toInt.toNat draws endpoints [] h
  have hnodup : toEvict.Nodup :=
    List.Nodup.of_append_left ((hperm.nodup_iff).2 h)
  have hsub : ∀ e ∈ toEvict, e ∈ endpoints := fun e he =>
    hperm.subset (List.mem_append_left _ he)
  have hcount : toEvict.length =
      min (max (actualScale - desiredCount).toInt 0).toNat endpoints.length := by
    simp only [List.length_nil, Nat.zero_add] at hlen
    have hmax : (max (actualScale - desiredCount).toInt 0).toNat =
        (actualScale - desiredCount).toInt.toNat := by omega
    rw [hmax]
    exact hlen
  refine ⟨hnodup, hsub, hcount, fun hlow hhigh => ?_, rfl,
    append_excludeEndpoints_perm h hnodup hsub⟩
  rw [← toInt_sub_of_fits hlow hhigh]
  exact hcount

theorem downscale_exact_two :
    let toEvict := (downscale 5 3 [1, 0] [7, 8, 9]).1
    let left := (downscale 5 3 [1, 0] [7, 8, 9]).2
    left = [9] ∧ toEvict.Nodup ∧ (toEvict ++ left).Perm [7, 8, 9] :=
  have h := downscale_exact 5 3 [1, 0] [7, 8, 9] (by decide)
  ⟨by decide, h.1, h.2.2.2.2.2⟩

/-- The program does what `downscale` says, and hands the victims to the goroutine that drains and
deletes them. -/
theorem achieves_doDownscaling (c : ℕ) (actualScale desiredCount : Int64)
    (hlow : -2 ^ 63 ≤ actualScale.toInt - desiredCount.toInt)
    (hhigh : actualScale.toInt - desiredCount.toInt < 2 ^ 63) (w : Alone Lock State Op) :
    (doDownscaling c actualScale.toInt desiredCount.toInt).Achieves exec w fun _ w' =>
      ∃ draws, ∃ r, r = downscale actualScale desiredCount draws (w.data.services c).endpoints ∧
        w'.started = w.started ++ [.drainAndDelete c r.1] ∧ w'.locks = w.locks ∧
        w'.data = w.data.modifyService c fun ss => { ss with endpoints := r.2 } := by
  rw [doDownscaling, ← toInt_sub_of_fits hlow hhigh]
  intro ch
  exact ⟨_, _, rfl, _, _, rfl, rfl, rfl, rfl⟩

/-! ## What reports of failures do -/

/-- The registered node in whose map `removeEndpointFromWNStruct` looks for an endpoint. -/
def State.home (s : State) (e : ℕ) : Option ℕ :=
  (s.nodeName e).bind fun name => s.niStorage.lookup name

/-- The sandboxes that the reports name for a service. -/
def State.named (s : State) (failures : List Failure) (c : ℕ) : List String :=
  (failures.filter fun failure => failure.type ≠ .sandboxDaemonFailure ∧
    s.siStorage.lookup failure.serviceName = some c).flatMap Failure.sandboxIDs

/-- No two endpoints of the service are of one sandbox, and their nodes are registered. -/
def State.Accounts (s : State) (c : ℕ) : Prop :=
  ((s.services c).endpoints.map fun e => (s.endpoints e).sandboxID).Nodup ∧
    ∀ e ∈ (s.services c).endpoints, (s.endpoints e).node.isSome = true → (s.home e).isSome = true

/-- So it is for each registered service. -/
def State.Accountable (s : State) : Prop :=
  ∀ name c, s.siStorage.lookup name = some c → s.Accounts c

/-- The nodes are as before, up to their maps; these have lost those endpoints of which this is so
and that were at home there. -/
structure Emptied (gone : ℕ → Prop) (s s' : State) : Prop where
  node : ∀ n, s'.nodes n = { s.nodes n with endpointMap := (s'.nodes n).endpointMap }
  lost : ∀ n e, s.home e = some n → gone e → (s'.nodes n).endpointMap.lookup e = none
  kept : ∀ n e, ¬(s.home e = some n ∧ gone e) →
    (s'.nodes n).endpointMap.lookup e = (s.nodes n).endpointMap.lookup e

/-- **What reports do** that name these sandboxes for each service. -/
structure Cleared (ids : ℕ → List String) (s s' : State) : Prop where
  frame : s' = { s with services := s'.services, nodes := s'.nodes, deployments := s'.deployments }
  service : ∀ c, s'.services c = { s.services c with
    endpoints := (s.services c).endpoints.filter fun e => (s.endpoints e).sandboxID ∉ ids c
    actualScale := (s.services c).actualScale -
      ((s.services c).endpoints.countP fun e => (s.endpoints e).sandboxID ∈ ids c : ℕ) }
  maps : Emptied (fun e => ∃ c, e ∈ (s.services c).endpoints ∧
    (s.endpoints e).sandboxID ∈ ids c) s s'

section

variable {s s' s'' : State} {gone gone' : ℕ → Prop} {ids ids' : ℕ → List String}

theorem Emptied.refl (s : State) : Emptied (fun _ => False) s s :=
  ⟨fun _ => rfl, fun _ _ _ h => h.elim, fun _ _ _ => rfl⟩

theorem Emptied.home_eq (h : Emptied gone s s') (hni : s'.niStorage = s.niStorage)
    (hendpoints : s'.endpoints = s.endpoints) (e : ℕ) : s'.home e = s.home e := by
  have hname : s'.nodeName e = s.nodeName e := by
    rw [State.nodeName, State.nodeName, hendpoints]
    exact congrArg (Option.map · _) (funext fun n => by rw [h.node n])
  rw [State.home, State.home, hname, hni]

theorem Emptied.trans (h : Emptied gone s s') (h' : Emptied gone' s' s'')
    (hhome : ∀ e, s'.home e = s.home e) : Emptied (fun e => gone e ∨ gone' e) s s'' := by
  refine ⟨fun n => ?_, fun n e hn hgone => ?_, fun n e hn => ?_⟩
  · rw [h'.node n, h.node n]
  · by_cases hgone' : gone' e
    · exact h'.lost n e ((hhome e).trans hn) hgone'
    · rw [h'.kept n e fun hpos => hgone' hpos.2]
      exact h.lost n e hn (hgone.resolve_right hgone')
  · rw [h'.kept n e fun hpos => hn ⟨(hhome e).symm.trans hpos.1, Or.inr hpos.2⟩]
    exact h.kept n e fun hpos => hn ⟨hpos.1, Or.inl hpos.2⟩

theorem Emptied.congr (h : Emptied gone s s') (hgone : ∀ e, gone e ↔ gone' e) :
    Emptied gone' s s' := by
  obtain rfl : gone = gone' := funext fun e => propext (hgone e)
  exact h

theorem Cleared.home_eq (h : Cleared ids s s') (e : ℕ) : s'.home e = s.home e :=
  h.maps.home_eq (by rw [h.frame]) (by rw [h.frame]) e

/-- **Reports after one another** do what their names together say. -/
theorem Cleared.trans (h : Cleared ids s s') (h' : Cleared ids' s' s'') :
    Cleared (fun c => ids c ++ ids' c) s s'' := by
  have hendpoints : s'.endpoints = s.endpoints := by rw [h.frame]
  refine ⟨?_, fun c => ?_, (h.maps.trans h'.maps h.home_eq).congr fun e => ?_⟩
  · rw [h'.frame, h.frame]
  · have hsplit :
        ((s.services c).endpoints.countP fun e => (s.endpoints e).sandboxID ∈ ids c ++ ids' c) =
        ((s.services c).endpoints.countP fun e => (s.endpoints e).sandboxID ∈ ids c) +
        (((s.services c).endpoints.filter fun e => (s.endpoints e).sandboxID ∉ ids c).countP
          fun e => (s.endpoints e).sandboxID ∈ ids' c) := by
      induction (s.services c).endpoints with
      | nil => rfl
      | cons e es ih => grind
    rw [h'.service c, h.service c, hendpoints, hsplit]
    simp only [List.filter_filter, List.mem_append, not_or, Bool.decide_and, Nat.cast_add]
    congr 1
    · exact List.filter_congr fun e _ => Bool.and_comm _ _
    · omega
  · rw [hendpoints]
    simp only [h.service, List.mem_filter, decide_eq_true_eq, List.mem_append]
    grind

theorem Cleared.refl (s : State) : Cleared (fun _ => []) s s := by
  refine ⟨rfl, fun c => ?_, (Emptied.refl s).congr fun e => ?_⟩
  · simp
  · simp

end

/-! ## The programs -/

section

variable {w : Alone Lock State Op}

/-- What a program leaves besides the data. -/
def SameBut (w w' : Alone Lock State Op) : Prop := w'.locks = w.locks ∧ w'.started = w.started

theorem emptied_erase {s : State} {e n : ℕ} (hn : s.home e = some n) :
    Emptied (· = e) s
      (s.modifyNode n fun wn => { wn with endpointMap := wn.endpointMap.erase e }) := by
  refine ⟨fun m => ?_, fun m e' hm he => ?_, fun m e' hpos => ?_⟩
  · by_cases hm : m = n
    · subst hm
      simp [State.modifyNode]
    · simp [State.modifyNode, hm]
  · subst he
    obtain rfl := Option.some.inj (hn.symm.trans hm)
    simp [State.modifyNode]
  · by_cases hm : m = n
    · subst hm
      have hne : e' ≠ e := fun he => hpos ⟨he ▸ hn, he⟩
      simp [State.modifyNode, AList.lookup_erase_ne hne]
    · simp [State.modifyNode, hm]

theorem achieves_removeEndpointFromWNStruct {e : ℕ}
    (hhome : (w.data.endpoints e).node.isSome = true → (w.data.home e).isSome = true)
    (hfree : ∀ n, w.locks (.endpointMap n) = {}) :
    (removeEndpointFromWNStruct e).Achieves exec w fun _ w' => SameBut w w' ∧
      w'.data = { w.data with nodes := w'.data.nodes } ∧ Emptied (· = e) w.data w'.data := by
  refine achieves_bind.2 (achieves_perform (fun _ => rfl) ?_)
  cases hnode : (w.data.endpoints e).node with
  | none =>
    have hnone : w.data.home e = none := by simp [State.home, State.nodeName, hnode]
    refine ⟨⟨rfl, rfl⟩, rfl, fun n => rfl, fun n e' hn he => ?_, fun n e' _ => rfl⟩
    subst he
    rw [hnone] at hn
    cases hn
  | some wn =>
    obtain ⟨n, hn⟩ := Option.isSome_iff_exists.1 (hhome (by rw [hnode]; rfl))
    have hlookup : w.data.niStorage.lookup (w.data.nodes wn).info.nodeID = some n := by
      simpa [State.home, State.nodeName, hnode] using hn
    refine achieves_bind.2 (achieves_perform (fun _ => rfl) (achieves_bind.2 (achieves_perform
      (r := some n) (fun _ => by rw [exec, hlookup]) ?_)))
    refine achieves_bind.2 (achieves_lock (hfree n) (achieves_bind.2 (achieves_perform
      (r := some n) (fun _ => by rw [exec, hlookup]) ?_)))
    refine achieves_bind.2 (achieves_perform (r := some n) (fun _ => by rw [exec, hlookup]) ?_)
    refine achieves_bind.2 (achieves_perform (fun _ => rfl) ⟨⟨?_, rfl⟩, rfl, emptied_erase hn⟩)
    exact update_unlock (hfree n)

theorem mem_searchEndpoint {s : State} {es : List ℕ} (cid : String)
    (hids : (es.map fun e => (s.endpoints e).sandboxID).Nodup) :
    (∀ e, s.searchEndpointByContainerName es cid = some e →
      ∀ e', e' ∈ es ∧ (s.endpoints e').sandboxID = cid ↔ e' = e) ∧
    (s.searchEndpointByContainerName es cid = none →
      ∀ e' ∈ es, (s.endpoints e').sandboxID ≠ cid) := by
  refine ⟨fun e he e' => ⟨fun h => ?_, fun h => ?_⟩, fun h e' he' => ?_⟩
  · have hid : (s.endpoints e).sandboxID = cid := by simpa using List.find?_some he
    exact List.inj_on_of_nodup_map hids h.1 (List.mem_of_find?_eq_some he) (h.2.trans hid.symm)
  · subst h
    exact ⟨List.mem_of_find?_eq_some he, by simpa using List.find?_some he⟩
  · simpa using List.find?_eq_none.1 h e' he'

/-- The loop over the reported ids: it finds the named endpoints, each once, and takes them out of
the maps of their nodes. -/
theorem achieves_collectEndpoints {c : ℕ} (cids : List String) (toRemove : List ℕ)
    (haccounts : w.data.Accounts c) (hfree : ∀ n, w.locks (.endpointMap n) = {})
    (hnodup : toRemove.Nodup) :
    (collectEndpoints c cids toRemove).Achieves exec w fun found w' => SameBut w w' ∧
      w'.data = { w.data with nodes := w'.data.nodes } ∧ found.Nodup ∧
      (∀ e, e ∈ found ↔ e ∈ toRemove ∨
        e ∈ (w.data.services c).endpoints ∧ (w.data.endpoints e).sandboxID ∈ cids) ∧
      Emptied (fun e => e ∈ (w.data.services c).endpoints ∧ (w.data.endpoints e).sandboxID ∈ cids)
        w.data w'.data := by
  induction cids generalizing w toRemove with
  | nil => exact ⟨⟨rfl, rfl⟩, rfl, hnodup, by simp, (Emptied.refl _).congr (by simp)⟩
  | cons cid cids ih =>
    obtain ⟨hsome, hnone⟩ := mem_searchEndpoint cid haccounts.1
    refine achieves_bind.2 (achieves_perform (fun _ => rfl) ?_)
    cases hfound : w.data.searchEndpointByContainerName (w.data.services c).endpoints cid with
    | none =>
      refine (ih toRemove haccounts hfree hnodup).mono fun found w' h => ?_
      refine ⟨h.1, h.2.1, h.2.2.1, fun e => ?_, h.2.2.2.2.congr fun e => ?_⟩
      · rw [h.2.2.2.1 e]
        grind
      · grind
    | some e =>
      have heq := hsome e hfound
      refine achieves_bind.2 ((achieves_removeEndpointFromWNStruct
        (haccounts.2 e ((heq e).2 rfl).1) hfree).mono ?_)
      rintro _ ⟨d, locks, started⟩ ⟨⟨rfl, rfl⟩, hdata, hempty⟩
      replace hdata : d = { w.data with nodes := d.nodes } := hdata
      have hhome' := hempty.home_eq (by rw [hdata]) (by rw [hdata])
      obtain ⟨hservices, hendpoints⟩ : d.services = w.data.services ∧
          d.endpoints = w.data.endpoints :=
        ⟨by rw [hdata], by rw [hdata]⟩
      refine (ih (w := ⟨d, w.locks, w.started⟩) (toRemove.insert e) ?_ hfree
        hnodup.insert).mono fun found w' h => ?_
      · simpa only [State.Accounts, hservices, hendpoints, hhome'] using haccounts
      · simp only [hservices, hendpoints] at h
        refine ⟨h.1, ?_, h.2.2.1, fun e' => ?_, (hempty.trans h.2.2.2.2 hhome').congr fun e' => ?_⟩
        · rw [h.2.1, hdata]
        · rw [h.2.2.2.1 e', List.mem_insert_iff]
          grind
        · grind

theorem achieves_updateEndpoints (c : ℕ) (es : List EndpointInfo)
    (hfree : w.locks .dataPlaneConnections = {}) :
    (updateEndpoints c es).Achieves exec w fun _ w' => SameBut w w' ∧
      w'.data = { w.data with deployments := w'.data.deployments } := by
  refine achieves_withLock hfree (achieves_bind.2 (achieves_perform (fun _ => rfl)
    (achieves_bind.2 (achieves_choose fun ch => ⟨_, _, rfl, ?_⟩))))
  refine Achieves.mono (achieves_forM (I := fun _ (w' : Alone Lock State Op) =>
    w'.locks = Function.update w.locks .dataPlaneConnections written ∧ w'.started = w.started ∧
      w'.data = { w.data with deployments := w'.data.deployments }) ?_ ?_) ?_
  · rintro ip ips ⟨d, locks, started⟩ ⟨rfl, rfl, hd⟩ ch
    -- the call changes what one data plane lists, or nothing
    simp only [exec]
    split
    · exact ⟨_, _, rfl, rfl, rfl, hd⟩
    · refine ⟨_, _, rfl, rfl, rfl, ?_⟩
      split
      · exact congrArg (fun s : State => s.setDeployment ip _ _) hd
      · exact hd
  · exact ⟨rfl, rfl, rfl⟩
  · rintro _ ⟨d, locks, started⟩ ⟨rfl, rfl, hd⟩
    exact ⟨rfl, ⟨rfl, rfl⟩, hd⟩

theorem Cleared.of_found {s s' : State} {c : ℕ} {cids : List String} {found : List ℕ}
    (hids : ((s.services c).endpoints.map fun e => (s.endpoints e).sandboxID).Nodup)
    (hnodup : found.Nodup) (hfound : ∀ e, e ∈ found ↔
      e ∈ (s.services c).endpoints ∧ (s.endpoints e).sandboxID ∈ cids)
    (hempty : Emptied (· ∈ found) s s')
    (hframe : s' = { s.modifyService c fun ss => { ss with
      endpoints := excludeEndpoints ss.endpoints found
      actualScale := ss.actualScale + -(found.length : ℤ) } with
        nodes := s'.nodes, deployments := s'.deployments }) :
    Cleared (fun c' => if c' = c then cids else []) s s' := by
  have hservices := congrArg State.services hframe
  refine ⟨?_, fun c' => ?_, hempty.congr fun e => ?_⟩
  · rw [hframe]
    rfl
  · by_cases hc : c' = c
    · subst hc
      have hkept : excludeEndpoints (s.services c').endpoints found =
          (s.services c').endpoints.filter fun e => (s.endpoints e).sandboxID ∉ cids :=
        List.filter_congr fun e he => by simp [hfound, he]
      have hcount : found.length =
          (s.services c').endpoints.countP fun e => (s.endpoints e).sandboxID ∈ cids := by
        rw [List.countP_eq_length_filter]
        refine ((List.perm_ext_iff_of_nodup hnodup (hids.of_map _ |>.filter _)).2 fun e =>
          ?_).length_eq
        simp [hfound]
      rw [hservices]
      simp [State.modifyService, hkept, hcount, sub_eq_add_neg]
    · rw [hservices]
      simp [State.modifyService, hc]
  · rw [hfound]
    refine ⟨fun h => ⟨c, h.1, by simpa using h.2⟩, fun ⟨c', he, hid⟩ => ?_⟩
    by_cases hc : c' = c
    · subst hc
      exact ⟨he, by simpa using hid⟩
    · simp [hc] at hid

theorem achieves_removeEndpoints {c : ℕ} (cids : List String) (haccounts : w.data.Accounts c)
    (hfree : ∀ l, w.locks l = {}) :
    (removeEndpoints c cids).Achieves exec w fun _ w' => SameBut w w' ∧
      Cleared (fun c' => if c' = c then cids else []) w.data w'.data := by
  have hothers : ∀ l, l ≠ .endpointLock c →
      Function.update w.locks (.endpointLock c) written l = {} :=
    fun l hl => (Function.update_of_ne hl _ _).trans (hfree l)
  refine achieves_withLock (hfree _) (achieves_bind.2 ((achieves_collectEndpoints
    (w := ⟨w.data, Function.update w.locks (.endpointLock c) written, w.started⟩) cids [] haccounts
    (fun n => hothers (.endpointMap n) (by simp)) List.nodup_nil).mono ?_))
  rintro found ⟨d, locks, started⟩ ⟨⟨rfl, rfl⟩, hd, hnodup, hfound, hempty⟩
  replace hd : d = { w.data with nodes := d.nodes } := hd
  simp only [List.not_mem_nil, false_or] at hfound
  refine achieves_bind.2 (achieves_perform (fun _ => rfl)
    (achieves_bind.2 (achieves_perform (fun _ => rfl)
    (achieves_bind.2 (achieves_perform (fun _ => rfl)
      (achieves_bind.2 (achieves_perform (fun _ => rfl)
      (Achieves.mono (achieves_updateEndpoints c _ ?_) ?_))))))))
  · exact hothers .dataPlaneConnections (by simp)
  rintro _ ⟨d', locks, started⟩ ⟨⟨rfl, rfl⟩, hd'⟩
  simp only at hd'
  refine ⟨rfl, ⟨rfl, rfl⟩, Cleared.of_found haccounts.1 hnodup hfound ?_ ?_⟩
  · have hnodes : d'.nodes = d.nodes := by rw [hd']; rfl
    refine (Emptied.congr ⟨fun n => ?_, fun n => ?_, fun n => ?_⟩ fun e => (hfound e).symm)
    · rw [hnodes]
      exact hempty.node n
    · rw [hnodes]
      exact hempty.lost n
    · rw [hnodes]
      exact hempty.kept n
  · rw [hd', hd]
    simp [State.modifyService, Function.update_idem]

end

/-! ## Failures -/

section

variable {s s₁ s₂ : State} {ids ids' : ℕ → List String}

/-- The names determine what is left. -/
theorem Cleared.unique (h : Cleared ids s s₁) (h' : Cleared ids' s s₂)
    (hids : ∀ c id, id ∈ ids c ↔ id ∈ ids' c) : s₂.services = s₁.services ∧
      ∀ n e, (s₂.nodes n).endpointMap.lookup e = (s₁.nodes n).endpointMap.lookup e := by
  refine ⟨funext fun c => ?_, fun n e => ?_⟩
  · rw [h.service c, h'.service c]
    simp only [hids]
  · have hmaps : Emptied (fun e => ∃ c, e ∈ (s.services c).endpoints ∧
        (s.endpoints e).sandboxID ∈ ids' c) s s₁ := h.maps.congr fun e => by simp only [hids]
    by_cases hpos : s.home e = some n ∧
        ∃ c, e ∈ (s.services c).endpoints ∧ (s.endpoints e).sandboxID ∈ ids' c
    · rw [h'.maps.lost n e hpos.1 hpos.2, hmaps.lost n e hpos.1 hpos.2]
    · rw [h'.maps.kept n e hpos, hmaps.kept n e hpos]

theorem Cleared.accountable (h : Cleared ids s s₁) (hs : s.Accountable) : s₁.Accountable := by
  intro name c hc
  obtain ⟨hids, hhome⟩ := hs name c (by rw [← hc, h.frame])
  have hendpoints : s₁.endpoints = s.endpoints := by rw [h.frame]
  simp only [State.Accounts, h.service c, hendpoints, h.home_eq]
  exact ⟨hids.sublist (List.filter_sublist.map _), fun e he => hhome e (List.mem_of_mem_filter he)⟩

theorem Cleared.named_eq (h : Cleared ids s s₁) (failures : List Failure) :
    s₁.named failures = s.named failures := by
  have hsi : s₁.siStorage = s.siStorage := by rw [h.frame]
  funext c
  rw [State.named, State.named, hsi]

end

/-- A control plane at which nothing is going on. -/
def alone (s : State) : Alone Lock State Op := ⟨s, fun _ => {}, []⟩

theorem achieves_handleFailure {s : State} (hs : s.Accountable) (failures : List Failure) :
    (handleFailure failures).Achieves exec (alone s) fun _ w =>
      w = alone w.data ∧ Cleared (s.named failures) s w.data := by
  induction failures generalizing s with
  | nil => exact ⟨rfl, .refl s⟩
  | cons failure failures ih =>
    have hnext : ∀ {s' : State} {here : ℕ → List String}, Cleared here s s' →
        (∀ c, s.named (failure :: failures) c = here c ++ s.named failures c) →
        (handleFailure failures).Achieves exec (alone s') fun _ w =>
          w = alone w.data ∧ Cleared (s.named (failure :: failures)) s w.data := by
      intro s' here hclear hnamed
      refine (ih (hclear.accountable hs)).mono fun _ w h => ⟨h.1, ?_⟩
      rw [funext hnamed, ← hclear.named_eq failures]
      exact hclear.trans h.2
    have hskip : (∀ c, s.siStorage.lookup failure.serviceName = some c →
        failure.type = .sandboxDaemonFailure) →
        ∀ c, s.named (failure :: failures) c = [] ++ s.named failures c := by
      intro hnot c
      simp only [State.named, List.nil_append]
      rw [List.filter_cons_of_neg]
      simpa using fun htype hlookup => htype (hnot c hlookup)
    have hreport : failure.type ≠ .sandboxDaemonFailure →
        (handleSandboxFailure failure).Achieves exec (alone s) fun _ w =>
          (handleFailure failures).Achieves exec w fun _ w =>
            w = alone w.data ∧ Cleared (s.named (failure :: failures)) s w.data := by
      intro htype
      refine achieves_bind.2 (achieves_perform (fun _ => rfl) ?_)
      cases hc : (alone s).data.siStorage.lookup failure.serviceName with
      | none =>
        replace hc : s.siStorage.lookup failure.serviceName = none := hc
        exact hnext (.refl s) (hskip (by simp [hc]))
      | some c =>
        replace hc : s.siStorage.lookup failure.serviceName = some c := hc
        refine (achieves_removeEndpoints (w := alone s) failure.sandboxIDs (hs _ c hc)
          fun _ => rfl).mono ?_
        rintro _ ⟨d, locks, started⟩ ⟨⟨rfl, rfl⟩, hclear⟩
        refine hnext hclear fun c' => ?_
        simp only [State.named, List.filter_cons, hc, Option.some.injEq]
        by_cases hcc : c = c'
        · simp [htype, hcc]
        · simp [hcc, Ne.symm hcc]
    rw [handleFailure, List.forM_cons]
    refine achieves_bind.2 ?_
    cases htype : failure.type with
    | sandboxDaemonFailure => exact hnext (.refl s) (hskip fun _ _ => htype)
    | sandboxFailure | workerNodeFailure => exact hreport (by simp [htype])

theorem mem_named {s : State} {failures : List Failure} {c : ℕ} {id : String} :
    id ∈ s.named failures c ↔ ∃ failure ∈ failures, failure.type ≠ .sandboxDaemonFailure ∧
      s.siStorage.lookup failure.serviceName = some c ∧ id ∈ failure.sandboxIDs := by
  simp [State.named, and_assoc]

/-- **Failures are handled exactly.** The named endpoints go and nothing else, and the same reports
once more, or in another order, change nothing. -/
theorem handleFailure_exact {s : State} (hs : s.Accountable) (failures : List Failure) :
    (handleFailure failures).Achieves exec (alone s) fun _ w => w = alone w.data ∧
      Cleared (s.named failures) s w.data ∧
      (∀ c, s.named failures c = [] → w.data.services c = s.services c) ∧
      (∀ again ⊆ failures, (handleFailure again).Achieves exec w fun _ w' =>
        w'.data.services = w.data.services ∧
        ∀ n e, (w'.data.nodes n).endpointMap.lookup e = (w.data.nodes n).endpointMap.lookup e) ∧
      ∀ others, (∀ failure, failure ∈ others ↔ failure ∈ failures) →
        (handleFailure others).Achieves exec (alone s) fun _ w' =>
          w'.data.services = w.data.services ∧
          ∀ n e, (w'.data.nodes n).endpointMap.lookup e =
            (w.data.nodes n).endpointMap.lookup e := by
  refine (achieves_handleFailure hs failures).mono fun _ w ⟨hw, hclear⟩ => ?_
  refine ⟨hw, hclear, fun c hc => ?_, fun again hagain => ?_, fun others hothers => ?_⟩
  · rw [hclear.service c, hc]
    simp
  · rw [hw]
    refine (achieves_handleFailure (hclear.accountable hs) again).mono fun _ w' ⟨_, hclear'⟩ => ?_
    rw [hclear.named_eq] at hclear'
    refine hclear.unique (hclear.trans hclear') fun c id => ?_
    rw [List.mem_append, or_iff_left_of_imp]
    rw [mem_named, mem_named]
    exact fun ⟨failure, hmem, h⟩ => ⟨failure, hagain hmem, h⟩
  · refine (achieves_handleFailure hs others).mono fun _ w' ⟨_, hclear'⟩ => ?_
    refine hclear.unique hclear' fun c id => ?_
    rw [mem_named, mem_named]
    simp only [hothers]

/-- A node `w` with two sandboxes of a service `f`, and perhaps a service `g` that has none. -/
def twoSandboxes (withG : Bool) : State :=
  { newControlPlane false false with
    niStorage := AList.singleton "w" 0
    siStorage := if withG then (AList.singleton "g" 1).insert "f" 0 else AList.singleton "f" 0
    nodes := fun _ => { info := ⟨"w", "10.0.0.1", 80, 8, 64⟩
                        endpointMap := (AList.singleton 1 "f").insert 0 "f" }
    services := fun c =>
      { info := ⟨if c = 0 then "f" else "g", "image", 1, 1⟩, reconstructed := false
        endpoints := if c = 0 then [0, 1] else [], actualScale := 2 }
    endpoints := fun e => ⟨if e = 0 then "a" else "b", "10.0.0.1:80", some 0, 80⟩ }

theorem handleFailure_exact_two :
    (handleFailure [⟨.sandboxFailure, "f", ["b", "x", "b"]⟩]).Achieves exec
      (alone (twoSandboxes false)) fun _ w => (w.data.services 0).endpoints = [0] ∧
        (w.data.services 0).actualScale = 1 ∧ (w.data.nodes 0).endpointMap.lookup 1 = none := by
  have hs : (twoSandboxes false).Accountable := by
    intro name c _
    refine ⟨?_, fun e _ _ => rfl⟩
    by_cases hc : c = 0 <;> simp [twoSandboxes, hc]
  refine (handleFailure_exact hs _).mono fun _ w h => ?_
  have hservice := h.2.1.service 0
  refine ⟨by rw [hservice]; rfl, by rw [hservice]; rfl, h.2.1.maps.lost 0 1 rfl ⟨0, ?_⟩⟩
  decide

/-! ## Reports for a node -/

def State.serviceNames (s : State) : List String :=
  (s.siStorage.entries.map Sigma.snd).map fun c => (s.services c).info.name

/-- The sandboxes in the map of a node. -/
def State.sandboxesOn (s : State) (n : ℕ) : List String :=
  (s.nodes n).endpointMap.keys.map fun e => (s.endpoints e).sandboxID

/-- Those of them that are of a service. -/
def State.sandboxesOf (s : State) (n : ℕ) (name : String) : List String :=
  ((s.nodes n).endpointMap.entries.filter fun p => p.2 = name).map fun p =>
    (s.endpoints p.1).sandboxID

/-- There is one report for each service with sandboxes on the node, with exactly these, and none
for any other. -/
def Partitions (s : State) (n : ℕ) (events : List Failure) : Prop :=
  ∀ name, if s.sandboxesOf n name = [] then events.filter (·.serviceName = name) = []
    else ∃ event, events.filter (·.serviceName = name) = [event] ∧
      event.sandboxIDs.Perm (s.sandboxesOf n name)

section

variable {s : State} {n : ℕ}

theorem achieves_getServicesOnWorkerNode {w : Alone Lock State Op}
    (hn : w.data.niStorage.lookup (w.data.nodes n).info.nodeID = some n)
    (hni : w.locks .niStorage = {}) (hmap : w.locks (.endpointMap n) = {}) :
    (getServicesOnWorkerNode n).Achieves exec w fun ids w' => w' = w ∧
      ids.Perm (w.data.sandboxesOn n) := by
  refine achieves_bind.2 (achieves_perform (fun _ => rfl) (achieves_bind.2 (achieves_withRLock hni
    (achieves_perform (r := some n) (fun _ => by rw [exec, hn]) ⟨rfl, ?_⟩))))
  exact achieves_withRLock hmap (achieves_choose fun ch =>
    ⟨_, _, rfl, rfl, rfl, Choice.arrange_perm ch _⟩)

/-- Each registered service gets a report with all sandboxes of the node. -/
theorem achieves_failuresOf {w : Alone Lock State Op}
    (hn : w.data.niStorage.lookup (w.data.nodes n).info.nodeID = some n)
    (hni : w.locks .niStorage = {}) (hmap : w.locks (.endpointMap n) = {}) (cs : List ℕ) :
    (failuresOf n cs).Achieves exec w fun events w' => w' = w ∧
      (∀ event ∈ events, event.sandboxIDs.Perm (w.data.sandboxesOn n)) ∧
      events.map Failure.serviceName =
        if w.data.sandboxesOn n = [] then [] else cs.map fun c =>
          (w.data.services c).info.name := by
  induction cs with
  | nil => exact ⟨rfl, by simp, by simp⟩
  | cons c cs ih =>
    refine achieves_bind.2 (achieves_perform (fun _ => rfl) (achieves_bind.2
      ((achieves_getServicesOnWorkerNode hn hni hmap).mono ?_)))
    rintro ids w' ⟨hw, hids⟩
    rw [hw]
    refine achieves_bind.2 (ih.mono ?_)
    rintro rest w'' ⟨hw', hrest, hnames⟩
    rw [hw']
    have hempty : ids = [] ↔ w.data.sandboxesOn n = [] := by
      rw [← List.length_eq_zero_iff, hids.length_eq, List.length_eq_zero_iff]
    by_cases h : ids = []
    · simp only [h, List.isEmpty_nil, if_true]
      exact ⟨rfl, hrest, by simp [hnames, hempty.1 h]⟩
    · simp only [List.isEmpty_iff, h, if_false]
      exact ⟨rfl, by simpa [hids] using hrest, by simp [hnames, mt hempty.2 h]⟩

theorem achieves_createWorkerNodeFailureEvents
    (hn : s.niStorage.lookup (s.nodes n).info.nodeID = some n) :
    (createWorkerNodeFailureEvents n).Achieves exec (alone s) fun events _ =>
      (∀ event ∈ events, event.sandboxIDs.Perm (s.sandboxesOn n)) ∧
      (events.map Failure.serviceName).Perm (if s.sandboxesOn n = [] then []
        else s.serviceNames) := by
  refine achieves_withLock rfl (achieves_bind.2 (achieves_choose fun ch => ⟨_, _, rfl, ?_⟩))
  refine (achieves_failuresOf hn rfl rfl _).mono fun events w' h => ⟨by rw [h.1], h.2.1, ?_⟩
  have hnames : events.map Failure.serviceName = if s.sandboxesOn n = [] then [] else
      (walkValues s.siStorage ch).map fun c => (s.services c).info.name := h.2.2
  rw [hnames]
  split
  · exact List.Perm.refl _
  · exact (Choice.arrange_perm ch _).map _

theorem sandboxesOf_eq_nil {name : String} :
    s.sandboxesOf n name = [] ↔ ∀ p ∈ (s.nodes n).endpointMap.entries, p.2 ≠ name := by
  simp [State.sandboxesOf, List.filter_eq_nil_iff]

theorem sandboxesOf_eq {name : String} (h : ∀ p ∈ (s.nodes n).endpointMap.entries, p.2 = name) :
    s.sandboxesOf n name = s.sandboxesOn n := by
  rw [State.sandboxesOf, List.filter_eq_self.2 (by simpa using h), State.sandboxesOn, AList.keys,
    List.keys, List.map_map]
  rfl

/-- **When the reports for a node partition its sandboxes**: it has none, or there is one service
only and they are all its own. -/
theorem createWorkerNodeFailureEvents_iff
    (hn : s.niStorage.lookup (s.nodes n).info.nodeID = some n) :
    ((createWorkerNodeFailureEvents n).Achieves exec (alone s) fun events _ =>
      Partitions s n events) ↔ s.sandboxesOn n = [] ∨ ∃ name, s.serviceNames = [name] ∧
        ∀ p ∈ (s.nodes n).endpointMap.entries, p.2 = name := by
  have hevents := achieves_createWorkerNodeFailureEvents hn
  constructor
  · intro h
    obtain ⟨events, _, ⟨hpart, hids, hnames⟩, -⟩ := (h.and hevents).solo fun _ => .ok
    refine or_iff_not_imp_left.2 fun hsome => ?_
    rw [if_neg hsome] at hnames
    obtain ⟨p, hp⟩ :=
      List.exists_mem_of_ne_nil _ (fun hnil : (s.nodes n).endpointMap.entries = [] =>
      hsome (by simp [State.sandboxesOn, AList.keys, List.keys, hnil]))
    -- the report for the service of this sandbox has all sandboxes of the node
    have hp' := hpart p.2
    rw [if_neg fun hnil => sandboxesOf_eq_nil.1 hnil p hp rfl] at hp'
    obtain ⟨event, hfilter, hperm⟩ := hp'
    have hevent : event ∈ events := List.mem_of_mem_filter (hfilter ▸ List.mem_singleton_self event)
    have hall : ∀ q ∈ (s.nodes n).endpointMap.entries, q.2 = p.2 := by
      have hlen := (hperm.symm.trans (hids event hevent)).length_eq
      simpa [State.sandboxesOf, State.sandboxesOn, AList.keys, List.keys,
        List.length_filter_eq_length_iff] using hlen
    have hown : events.filter (·.serviceName = p.2) = events := by
      refine List.filter_eq_self.2 fun other hother => ?_
      by_contra hne
      have hother' := hpart other.serviceName
      rw [if_pos (sandboxesOf_eq_nil.2 fun q hq => by
        simpa [hall q hq, eq_comm] using hne)] at hother'
      simpa using List.filter_eq_nil_iff.1 hother' other hother
    rw [hown] at hfilter
    have hname : event.serviceName = p.2 := by
      simpa using List.filter_eq_self.1 hown event hevent
    rw [hfilter, List.map_singleton, hname] at hnames
    exact ⟨p.2, (List.singleton_perm.1 hnames).symm, hall⟩
  · rintro hcond
    refine hevents.mono fun events _ ⟨hids, hnames⟩ name => ?_
    by_cases hnil : s.sandboxesOn n = []
    · rw [if_pos hnil, List.perm_nil, List.map_eq_nil_iff] at hnames
      have hof : s.sandboxesOf n name = [] := by
        rw [sandboxesOf_eq_nil]
        simp_all [State.sandboxesOn, AList.keys, List.keys]
      rw [if_pos hof, hnames]
      rfl
    · obtain ⟨own, hown, hall⟩ := hcond.resolve_left hnil
      rw [if_neg hnil, hown, List.perm_singleton] at hnames
      obtain ⟨event, rfl, hname⟩ := List.map_eq_singleton_iff.1 hnames
      by_cases heq : own = name
      · subst heq
        rw [sandboxesOf_eq hall, if_neg hnil]
        exact ⟨event, by simp [hname], hids event List.mem_cons_self⟩
      · rw [if_pos (sandboxesOf_eq_nil.2 fun q hq => by rw [hall q hq]; exact heq)]
        simp [hname, heq]

end

theorem createWorkerNodeFailureEvents_of_one : (createWorkerNodeFailureEvents 0).Achieves exec
    (alone (twoSandboxes false)) fun events _ => Partitions (twoSandboxes false) 0 events :=
  (createWorkerNodeFailureEvents_iff rfl).2 (.inr ⟨"f", rfl, by decide⟩)

/-- A service without sandboxes gets a report with those of the other one. -/
theorem not_createWorkerNodeFailureEvents : ∃ s n,
    s.niStorage.lookup (s.nodes n).info.nodeID = some n ∧
      ¬(createWorkerNodeFailureEvents n).Achieves exec (alone s) fun events _ =>
        Partitions s n events := by
  refine ⟨twoSandboxes true, 0, rfl, fun h => ?_⟩
  obtain ⟨events, w, hpart, hsolo⟩ := h.solo fun _ => .ok
  have hevents := congrArg (fun r => match r with | .ok r => r.1 | .error _ => []) hsolo
  have hg := hpart "g"
  rw [if_pos (by decide), ← show _ = events from hevents] at hg
  revert hg
  decide

end Dirigent.ControlPlane
