import Mathlib.Data.List.AList

/-!
# The servers of the load balancer

`ReviseDataplanes` makes the HAProxy backend of the data planes consist of the given addresses. It
works in a transaction: it compares the addresses with the servers of the configuration, removes and
adds servers, and commits; if anything fails it starts over. Beside the configuration there is a map
`addressToName`, which is changed with the servers of the transaction and is not set back when the
transaction fails.

After a failed commit the map has exactly the addresses that are wanted, while the configuration is
the old one. The map then keeps every later attempt from doing anything: what is to be removed is
not in the map, and what is to be added is (`genericRevise_of_stale`).

* **`converges_iff`** — when `ReviseDataplanes` returns, servers and map are as they should be
  exactly if no commit has failed, or there was nothing to change in the first place.

Addresses are pairs of host and port; `SplitAddress` and `Sprintf("%s:%d")` go from one form to the
other. Left out: the health-check settings of a server and the version numbers of the configuration.
-/

namespace Dirigent.HAProxy

structure Address where
  ip : String
  port : ℤ
  deriving DecidableEq, Repr

/-- `models.Server` -/
structure Server where
  name : String
  address : Address
  deriving DecidableEq, Repr

/-- The map and the servers of the backend `dirigent_data_planes`. -/
structure API where
  addressToName : AList fun _ : Address => String
  servers : List Server

namespace API

def addresses (api : API) : List Address := api.servers.map Server.address

def names (api : API) : List String := api.servers.map Server.name

def addServer (api : API) (name : String) (a : Address) : API :=
  if a ∈ api.addressToName then api
  else
    { addressToName := api.addressToName.insert a name
      servers := api.servers ++ [⟨name, a⟩] }

def removeServerByName (api : API) (a : Address) : API :=
  match api.addressToName.lookup a with
  | none => api
  | some dataplaneName =>
    { addressToName := api.addressToName.erase a
      servers := api.servers.filter fun s => s.name ≠ dataplaneName }

end API

/-- `_map.Difference` -/
def difference {α : Type} [DecidableEq α] (a b : List α) : List α := a.filter fun x => x ∉ b

/-- What comes of one call of `genericRevise`. Where it comes to the servers, each call of
`addServer` draws a random name. -/
inductive Attempt
  | getVersionFails
  | startTransactionFails
  | getServersFails
  | commitFails (names : ℕ → String)
  | commits (names : ℕ → String)

/-- The additions, from the `k`-th name on. -/
def addServers (names : ℕ → String) : ℕ → List Address → API → API
  | _, [], api => api
  | k, a :: toAdd, api => addServers names (k + 1) toAdd (api.addServer (names k) a)

/-- The changes that an attempt makes in its transaction, and whether there are any. -/
def changeServers (api : API) (addressesToKeep : List Address) (names : ℕ → String) : API × Bool :=
  let toAdd := difference addressesToKeep api.addresses
  let toRemove := difference api.addresses addressesToKeep
  let removed := toRemove.foldl API.removeServerByName api
  (addServers names 0 toAdd removed, !toAdd.isEmpty || !toRemove.isEmpty)

/-- `genericRevise` for the data planes: the API, the success, and whether there were changes. -/
def genericRevise (api : API) (addressesToKeep : List Address) : Attempt → API × Bool × Bool
  | .getVersionFails | .startTransactionFails | .getServersFails => (api, false, false)
  | .commitFails names =>
    ({ (changeServers api addressesToKeep names).1 with servers := api.servers }, false, false)
  | .commits names =>
    let (api', anyChanges) := changeServers api addressesToKeep names
    (api', true, anyChanges)

/-- `ReviseDataplanes`, as long as there are attempts. -/
def reviseDataplanes (addressesToKeep : List Address) : API → List Attempt → Option (API × Bool)
  | _, [] => none
  | api, a :: attempts =>
    match genericRevise api addressesToKeep a with
    | (api', true, changes) => some (api', changes)
    | (api', false, _) => reviseDataplanes addressesToKeep api' attempts

/-! ## The properties -/

/-- The map has the names of the servers, one for each address. -/
structure Consistent (api : API) : Prop where
  addresses : api.addresses.Nodup
  names : api.names.Nodup
  lookup : ∀ a n, api.addressToName.lookup a = some n ↔ (⟨n, a⟩ : Server) ∈ api.servers

/-- The backend consists of these addresses. -/
def Has (api : API) (addressesToKeep : List Address) : Prop :=
  ∀ a, a ∈ api.addresses ↔ a ∈ addressesToKeep

/-- The names that `addServer` draws are new, so that `CreateServer` succeeds. -/
def Fresh (api : API) : Attempt → Prop
  | .commitFails names | .commits names => Function.Injective names ∧ ∀ k, names k ∉ api.names
  | _ => True

/-- No commit fails before one succeeds. -/
def CommitsFirst : List Attempt → Prop
  | .commitFails _ :: _ => False
  | .commits _ :: _ => True
  | _ :: attempts => CommitsFirst attempts
  | [] => True

section

variable {api : API} {keep : List Address} {names : ℕ → String} {a : Address}

theorem mem_difference {α : Type} [DecidableEq α] {x : α} {xs ys : List α} :
    x ∈ difference xs ys ↔ x ∈ xs ∧ x ∉ ys := by
  simp [difference]

theorem API.mem_addresses : a ∈ api.addresses ↔ ∃ n, (⟨n, a⟩ : Server) ∈ api.servers := by
  constructor
  · intro h
    obtain ⟨⟨n, b⟩, hs, rfl⟩ := List.mem_map.1 h
    exact ⟨n, hs⟩
  · rintro ⟨n, hs⟩
    exact List.mem_map.2 ⟨_, hs, rfl⟩

theorem Consistent.mem_iff (h : Consistent api) : a ∈ api.addressToName ↔ a ∈ api.addresses := by
  rw [← AList.lookup_isSome, Option.isSome_iff_exists, API.mem_addresses]
  exact exists_congr fun n => h.lookup a n

/-! ## The changes of an attempt -/

theorem Consistent.eq_of_name (h : Consistent api) {s t : Server} (hs : s ∈ api.servers)
    (ht : t ∈ api.servers) (hname : s.name = t.name) : s = t :=
  List.inj_on_of_nodup_map h.names hs ht hname

theorem Consistent.remove (h : Consistent api) (a : Address) :
    Consistent (api.removeServerByName a) ∧
      ∀ b, b ∈ (api.removeServerByName a).addresses ↔ b ∈ api.addresses ∧ b ≠ a := by
  unfold API.removeServerByName
  cases hname : api.addressToName.lookup a with
  | none =>
    refine ⟨h, fun b => ⟨fun hb => ⟨hb, ?_⟩, And.left⟩⟩
    rintro rfl
    rw [← h.mem_iff, ← AList.lookup_isSome, hname] at hb
    cases hb
  | some n =>
    have hserver := (h.lookup a n).1 hname
    have hsub : (api.servers.filter fun s => s.name ≠ n).Sublist api.servers := List.filter_sublist
    -- among the servers, the address of the removed one goes with its name
    have hmem : ∀ b n', (⟨n', b⟩ : Server) ∈ api.servers.filter (fun s => s.name ≠ n) ↔
        (⟨n', b⟩ : Server) ∈ api.servers ∧ b ≠ a := by
      intro b n'
      simp only [List.mem_filter, decide_eq_true_eq]
      refine and_congr_right fun hb => not_congr ⟨?_, ?_⟩
      · rintro rfl
        exact congrArg Server.address (h.eq_of_name hb hserver rfl)
      · rintro rfl
        exact Option.some.inj (((h.lookup b n').2 hb).symm.trans hname)
    refine ⟨⟨h.addresses.sublist (hsub.map _), h.names.sublist (hsub.map _), fun b n' =>
      ?_⟩, fun b => ?_⟩
    · rw [hmem]
      by_cases hb : b = a
      · subst hb
        simp [AList.lookup_erase]
      · rw [AList.lookup_erase_ne hb, h.lookup]
        simp [hb]
    · rw [API.mem_addresses, API.mem_addresses]
      simp only [hmem, exists_and_right]

theorem Consistent.add (h : Consistent api) {name : String} (hname : name ∉ api.names)
    (a : Address) : Consistent (api.addServer name a) ∧
      ∀ b, b ∈ (api.addServer name a).addresses ↔ b ∈ api.addresses ∨ b = a := by
  unfold API.addServer
  split
  next hmem =>
    refine ⟨h, fun b => ⟨.inl, ?_⟩⟩
    rintro (hb | rfl)
    · exact hb
    · exact h.mem_iff.1 hmem
  next hnot =>
    rw [h.mem_iff] at hnot
    refine ⟨⟨?_, ?_, fun b n => ?_⟩, fun b => ?_⟩
    · simpa [API.addresses, List.nodup_append] using ⟨h.addresses, fun s hs hsa => hnot
        (List.mem_map.2 ⟨s, hs, hsa⟩)⟩
    · simpa [API.names, List.nodup_append] using ⟨h.names, fun s hs hsn => hname
        (List.mem_map.2 ⟨s, hs, hsn⟩)⟩
    · by_cases hb : b = a
      · subst hb
        have hold : ∀ n', (⟨n', b⟩ : Server) ∉ api.servers := fun n' hn' =>
          hnot (API.mem_addresses.2 ⟨n', hn'⟩)
        simp [AList.lookup_insert, hold, eq_comm]
      · rw [AList.lookup_insert_ne hb, h.lookup]
        simp [hb]
    · simp [API.addresses]

theorem API.names_removeServerByName (api : API) (a : Address) :
    (api.removeServerByName a).names ⊆ api.names := by
  unfold API.removeServerByName
  split
  · exact List.Subset.refl _
  · exact (List.filter_sublist.map _).subset

theorem API.names_addServer (api : API) (name : String) (a : Address) :
    (api.addServer name a).names ⊆ name :: api.names := by
  unfold API.addServer
  split
  · exact List.subset_cons_self _ _
  · intro n hn
    simpa [API.names, or_comm] using hn

theorem Consistent.removeAll (h : Consistent api) (toRemove : List Address) :
    Consistent (toRemove.foldl API.removeServerByName api) ∧
      (toRemove.foldl API.removeServerByName api).names ⊆ api.names ∧
      ∀ b, b ∈ (toRemove.foldl API.removeServerByName api).addresses ↔
        b ∈ api.addresses ∧ b ∉ toRemove := by
  induction toRemove generalizing api with
  | nil => exact ⟨h, List.Subset.refl _, by simp⟩
  | cons a toRemove ih =>
    obtain ⟨hremoved, hmem⟩ := h.remove a
    obtain ⟨hall, hnames, hmem'⟩ := ih hremoved
    refine ⟨hall, List.Subset.trans hnames (api.names_removeServerByName a), fun b => ?_⟩
    rw [List.foldl_cons, hmem', hmem, List.mem_cons, not_or, and_assoc]

/-- All additions. The names that are still to come stay new. -/
theorem Consistent.addAll (h : Consistent api) (hinj : Function.Injective names) {k : ℕ}
    (hnew : ∀ j, k ≤ j → names j ∉ api.names) (toAdd : List Address) :
    Consistent (addServers names k toAdd api) ∧
      ∀ b, b ∈ (addServers names k toAdd api).addresses ↔ b ∈ api.addresses ∨ b ∈ toAdd := by
  induction toAdd generalizing api k with
  | nil => exact ⟨h, by simp [addServers]⟩
  | cons a toAdd ih =>
    obtain ⟨hadded, hmem⟩ := h.add (hnew k le_rfl) a
    have hnew' : ∀ j, k + 1 ≤ j → names j ∉ (api.addServer (names k) a).names := by
      intro j hj hmem
      rcases List.mem_cons.1 (api.names_addServer (names k) a hmem) with heq | hmem
      · have hjk := hinj heq
        omega
      · exact hnew j (by omega) hmem
    obtain ⟨hall, hmem'⟩ := ih hadded hnew'
    refine ⟨hall, fun b => ?_⟩
    rw [addServers, hmem', hmem, List.mem_cons, or_assoc]

/-- **What is committed is what was asked for.** -/
theorem Consistent.changeServers (h : Consistent api) (hinj : Function.Injective names)
    (hnew : ∀ k, names k ∉ api.names) (keep : List Address) :
    Consistent (changeServers api keep names).1 ∧ Has (changeServers api keep names).1 keep := by
  obtain ⟨hremoved, hnames, hmem⟩ := h.removeAll (difference api.addresses keep)
  obtain ⟨hadded, hmem'⟩ := hremoved.addAll hinj (k := 0) (fun j _ hj => hnew j (hnames hj))
    (difference keep api.addresses)
  refine ⟨hadded, fun a => ?_⟩
  refine (hmem' a).trans ?_
  rw [hmem, mem_difference, mem_difference]
  tauto

/-! ## Attempts after a failed commit -/

/-- The map has the wanted addresses, whatever the servers are. -/
def Stale (api : API) (keep : List Address) : Prop := ∀ a, a ∈ api.addressToName ↔ a ∈ keep

theorem Stale.removeAll (h : Stale api keep) (toRemove : List Address)
    (hnot : ∀ a ∈ toRemove, a ∉ keep) : toRemove.foldl API.removeServerByName api = api := by
  induction toRemove with
  | nil => rfl
  | cons a toRemove ih =>
    have hnone : api.addressToName.lookup a = none := by
      rw [AList.lookup_eq_none, h a]
      exact hnot a List.mem_cons_self
    rw [List.foldl_cons, API.removeServerByName, hnone]
    exact ih fun b hb => hnot b (List.mem_cons_of_mem _ hb)

theorem Stale.addAll (h : Stale api keep) (k : ℕ) (toAdd : List Address)
    (hkeep : ∀ a ∈ toAdd, a ∈ keep) : addServers names k toAdd api = api := by
  induction toAdd generalizing k with
  | nil => rfl
  | cons a toAdd ih =>
    have hmem : a ∈ api.addressToName := (h a).2 (hkeep a List.mem_cons_self)
    rw [addServers, API.addServer, if_pos hmem]
    exact ih (k + 1) fun b hb => hkeep b (List.mem_cons_of_mem _ hb)

theorem Stale.changeServers (h : Stale api keep) : (changeServers api keep names).1 = api := by
  change addServers names 0 _ ((difference api.addresses keep).foldl _ api) = api
  rw [h.removeAll _ fun a ha => (mem_difference.1 ha).2]
  exact h.addAll 0 _ fun a ha => (mem_difference.1 ha).1

theorem genericRevise_of_stale (h : Stale api keep) (a : Attempt) :
    (genericRevise api keep a).1 = api := by
  cases a with
  | commitFails names =>
    change { (HAProxy.changeServers api keep names).1 with servers := api.servers } = api
    rw [h.changeServers]
  | commits names => exact h.changeServers
  | _ => rfl

theorem reviseDataplanes_of_stale (h : Stale api keep) {attempts : List Attempt} {api' : API}
    {changes : Bool} (hrevised : reviseDataplanes keep api attempts = some (api', changes)) :
    api' = api := by
  induction attempts with
  | nil => cases hrevised
  | cons a attempts ih =>
    have hsame := genericRevise_of_stale h a
    rw [reviseDataplanes] at hrevised
    split at hrevised
    next heq =>
      cases hrevised
      rw [heq] at hsame
      exact hsame
    next heq =>
      rw [heq] at hsame
      dsimp only at hsame
      subst hsame
      exact ih hrevised

/-! ## All attempts -/

/-- Where there is nothing to change, the map is already that of a stale configuration. -/
theorem Consistent.stale (h : Consistent api) (hhas : Has api keep) : Stale api keep := fun a =>
  h.mem_iff.trans (hhas a)

end

/-- **HAProxy revision converges** exactly if no commit has failed, or nothing was to be changed:
then the servers have exactly the given addresses, one each, and the map has their names. -/
theorem converges_iff {api api' : API} {keep : List Address} {attempts : List Attempt}
    {changes : Bool} (h : Consistent api) (hfresh : ∀ a ∈ attempts, Fresh api a)
    (hrevised : reviseDataplanes keep api attempts = some (api', changes)) :
    (Consistent api' ∧ Has api' keep) ↔ (CommitsFirst attempts ∨ Has api keep) := by
  induction attempts with
  | nil => cases hrevised
  | cons a attempts ih =>
    cases a with
    | commits names =>
      cases hrevised
      obtain ⟨hinj, hnew⟩ := hfresh _ List.mem_cons_self
      exact iff_of_true (h.changeServers hinj hnew keep) (.inl trivial)
    | commitFails names =>
      obtain ⟨hinj, hnew⟩ := hfresh _ List.mem_cons_self
      obtain ⟨hchanged, hhas⟩ := h.changeServers hinj hnew keep
      -- the map is that of the transaction, the servers are the old ones
      have hstale : Stale { (changeServers api keep names).1 with servers := api.servers } keep :=
        hchanged.stale hhas
      have hsame := reviseDataplanes_of_stale hstale hrevised
      rw [hsame]
      constructor
      · rintro ⟨-, hold⟩
        exact .inr hold
      · rintro (hfails | hold)
        · cases hfails
        · refine ⟨?_, hold⟩
          rw [(h.stale hold).changeServers]
          exact h
    | _ => exact ih (fun a ha => hfresh a (List.mem_cons_of_mem _ ha)) hrevised

/-- One way to draw names: `dp_`, `dp_1`, `dp_11`, … -/
def drawnName (k : ℕ) : String := String.ofList ("dp_".toList ++ List.replicate k '1')

theorem drawnName_injective : Function.Injective drawnName := by
  intro j k h
  have hlist := List.append_cancel_left (String.ofList_injective h)
  simpa using congrArg List.length hlist

theorem length_drawnName (k : ℕ) : (drawnName k).toList.length = k + 3 := by
  unfold drawnName
  rw [String.toList_ofList]
  simp

theorem consistent_empty : Consistent ⟨∅, []⟩ :=
  ⟨List.nodup_nil, List.nodup_nil, fun a n => by simp⟩

/-- Of two data planes one stays and one is replaced, after an attempt that gets no version. -/
theorem converges_of_replacement :
    let api := ((⟨∅, []⟩ : API).addServer "x" ⟨"10.0.1.1", 80⟩).addServer "y" ⟨"10.0.1.2", 80⟩
    let keep : List Address := [⟨"10.0.1.2", 80⟩, ⟨"10.0.1.3", 80⟩, ⟨"10.0.1.3", 80⟩]
    ∃ api', reviseDataplanes keep api [.getVersionFails, .commits drawnName] = some (api', true) ∧
      Consistent api' ∧ Has api' keep := by
  intro api keep
  have hconsistent : Consistent api :=
    ((consistent_empty.add List.not_mem_nil _).1.add (by decide) _).1
  have hnew : ∀ k, drawnName k ∉ api.names := by
    intro k hk
    have hmem : drawnName k ∈ ["x", "y"] := hk
    have hlength := length_drawnName k
    simp only [List.mem_cons, List.not_mem_nil, or_false] at hmem
    rcases hmem with heq | heq <;> rw [heq] at hlength <;> simp at hlength
  have hfresh : ∀ a ∈ [.getVersionFails, .commits drawnName], Fresh api a := by
    intro a ha
    rcases List.mem_cons.1 ha with rfl | ha
    · trivial
    · rw [List.mem_singleton.1 ha]
      exact ⟨drawnName_injective, hnew⟩
  have hrevised : ∃ api', reviseDataplanes keep api [.getVersionFails, .commits drawnName]
      = some (api', true) := ⟨_, rfl⟩
  obtain ⟨api', hrevised⟩ := hrevised
  exact ⟨api', hrevised, (converges_iff hconsistent hfresh hrevised).2 (.inl trivial)⟩

/-- A data plane is to be added, and the first commit fails: the second one commits no server. -/
theorem exists_not_converged :
    Consistent ⟨∅, []⟩ ∧ Fresh ⟨∅, []⟩ (.commitFails drawnName) ∧
      ∃ api, reviseDataplanes [⟨"10.0.1.1", 80⟩] ⟨∅, []⟩
          [.commitFails drawnName, .commits drawnName] = some (api, true) ∧
        api.servers = [] ∧ ¬ Has api [⟨"10.0.1.1", 80⟩] := by
  refine ⟨consistent_empty, ⟨drawnName_injective, fun _ => List.not_mem_nil⟩, _, rfl,
    rfl, fun h => ?_⟩
  exact List.not_mem_nil ((h ⟨"10.0.1.1", 80⟩).2 List.mem_cons_self)

end Dirigent.HAProxy
