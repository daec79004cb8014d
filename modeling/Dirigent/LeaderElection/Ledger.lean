import Dirigent.LeaderElection.Votes

/-!
# The votes an election has counted

The vote goroutines of one `startElection` share a counter, and several elections of one candidate
can be under way at once. The ledger says that the counters are honest, in every run: what the
`k`-th election of `m` has counted is `m` itself and distinct peers that granted a request of that
very call in the term the election started in.

The key of a vote call is its caller, its election and its peer. No two calls in flight have the
same key, and a counted peer has no call in flight, so that no grant is counted twice.
-/

namespace Dirigent.LeaderElection

open Cluster

/-- The caller, the election and the peer of a vote call. -/
def Call.voteKey : Call → Option (Int32 × Nat × Int32)
  | .requestVote src k dst _ | .requestVoteReply src k dst _ => some (src, k, dst)
  | _ => none

/-- The keys of the vote calls in flight. -/
def Cluster.voteKeys (s : Cluster) : List (Int32 × Nat × Int32) :=
  s.inFlight.filterMap Call.voteKey

/-- The peer `q` granted the request of the `k`-th election of `m`, with a reply of term `T`. -/
def Granted (tr : List (Machine.Step Cluster Event)) (m : Int32) (k : Nat) (q T : Int32) : Prop :=
  ∃ t ∈ tr, ∃ args, t.event = .deliver (.requestVote m k q args) ∧
    voteOf t.src t.event = some ⟨q, T, m⟩

variable {R : Replicas} {s s' : Cluster} {e : Event} {tr : List (Machine.Step Cluster Event)}

variable {m q T : Int32} {k : Nat} {key : Int32 × Nat × Int32} {c : Call} {cm : ConsensusModule}

theorem Granted.cast (h : Granted tr m k q T) :
    Cast tr ⟨q, T, m⟩ := by
  obtain ⟨t, ht, -, -, hv⟩ := h
  exact ⟨t, ht, hv⟩

theorem Granted.cons (h : Granted tr m k q T) (t : Machine.Step Cluster Event) :
    Granted (t :: tr) m k q T := by
  obtain ⟨t', ht, h⟩ := h
  exact ⟨t', List.mem_cons_of_mem _ ht, h⟩

theorem Cast.cons {v : Vote} (h : Cast tr v) (t : Machine.Step Cluster Event) :
    Cast (t :: tr) v := by
  obtain ⟨t', ht, h⟩ := h
  exact ⟨t', List.mem_cons_of_mem _ ht, h⟩

/-- The election `el`, the `k`-th of `m`, has counted `m` itself and the distinct peers `S`. -/
structure Counted (R : Replicas) (tr : List (Machine.Step Cluster Event)) (s : Cluster)
    (m : Int32) (k : Nat) (el : Election) (S : List Int32) : Prop where
  nodup : S.Nodup
  peers : ∀ q ∈ S, q ∈ R.ids.erase m
  granted : ∀ q ∈ S, Granted tr m k q el.savedCurrentTerm
  settled : ∀ q ∈ S, (m, k, q) ∉ s.voteKeys
  votes : el.votesReceived = S.length + 1
  self : Cast tr ⟨m, el.savedCurrentTerm, m⟩

structure Ledger (R : Replicas) (tr : List (Machine.Step Cluster Event)) (s : Cluster) :
    Prop where
  keys : s.voteKeys.Nodup
  requests : ∀ m k q args, .requestVote m k q args ∈ s.inFlight →
    ∃ el, (s.modules m).elections[k]? = some el ∧ args.term = el.savedCurrentTerm
  replies : ∀ m k q reply, .requestVoteReply m k q reply ∈ s.inFlight →
    (∃ el, (s.modules m).elections[k]? = some el) ∧
      (reply.voteGranted = true → Granted tr m k q reply.term)
  counted : ∀ m ∈ R.ids, ∀ k el, (s.modules m).elections[k]? = some el →
    ∃ S, Counted R tr s m k el S

theorem Counted.cons {el : Election} {S : List Int32} (hS : Counted R tr s m k el S)
    (t : Machine.Step Cluster Event)
    (hkeys : ∀ q, (m, k, q) ∈ s'.voteKeys → (m, k, q) ∈ s.voteKeys) :
    Counted R (t :: tr) s' m k el S :=
  ⟨hS.nodup, hS.peers, fun q hq => (hS.granted q hq).cons t,
    fun q hq hkey => hS.settled q hq (hkeys q hkey), hS.votes, hS.self.cons t⟩

theorem mem_voteKeys :
    key ∈ s.voteKeys ↔ ∃ c ∈ s.inFlight, c.voteKey = some key := List.mem_filterMap

/-! ## Steps that touch no election -/

/-- A step that changes no election and adds no vote call keeps the ledger. -/
theorem Ledger.frame (hL : Ledger R tr s) (t : Machine.Step Cluster Event)
    (helections : ∀ m, (s'.modules m).elections = (s.modules m).elections)
    (hkeys : s'.voteKeys.Sublist s.voteKeys)
    (hcalls : ∀ c ∈ s'.inFlight, c.voteKey ≠ none → c ∈ s.inFlight) :
    Ledger R (t :: tr) s' := by
  refine ⟨hL.keys.sublist hkeys, fun m k q args hc => ?_, fun m k q reply hc => ?_,
    fun m hm k el hel => ?_⟩
  · rw [helections]
    exact hL.requests m k q args (hcalls _ hc (by simp [Call.voteKey]))
  · rw [helections]
    obtain ⟨hel, hg⟩ := hL.replies m k q reply (hcalls _ hc (by simp [Call.voteKey]))
    exact ⟨hel, fun h => (hg h).cons t⟩
  · rw [helections] at hel
    obtain ⟨S, hS⟩ := hL.counted m hm k el hel
    exact ⟨S, hS.cons t fun q => hkeys.mem⟩

theorem voteKeys_take (s : Cluster) (c : Call) : (s.take c).voteKeys.Sublist s.voteKeys :=
  List.Sublist.filterMap _ List.erase_sublist

theorem voteKeys_perm (hc : c ∈ s.inFlight) (hk : c.voteKey = some key) :
    s.voteKeys.Perm (key :: (s.take c).voteKeys) := by
  have hperm := (List.perm_cons_erase hc).filterMap Call.voteKey
  simpa [voteKeys, List.filterMap_cons, hk] using hperm

theorem notMem_voteKeys_take (hL : Ledger R tr s) (hc : c ∈ s.inFlight)
    (hk : c.voteKey = some key) : key ∉ (s.take c).voteKeys := by
  have hnodup := (voteKeys_perm hc hk).nodup_iff.1 hL.keys
  exact (List.nodup_cons.1 hnodup).1

theorem Ledger.lt_of_mem_voteKeys (hL : Ledger R tr s) (h : (m, k, q) ∈ s.voteKeys) :
    k < (s.modules m).elections.length := by
  obtain ⟨c, hc, hk⟩ := mem_voteKeys.1 h
  cases c with
  | requestVote src k' dst args =>
    obtain ⟨rfl, rfl, rfl⟩ : src = m ∧ k' = k ∧ dst = q := by simpa [Call.voteKey] using hk
    obtain ⟨el, hel, -⟩ := hL.requests _ _ _ _ hc
    exact (List.getElem?_eq_some_iff.1 hel).1
  | requestVoteReply src k' dst reply =>
    obtain ⟨rfl, rfl, rfl⟩ : src = m ∧ k' = k ∧ dst = q := by simpa [Call.voteKey] using hk
    obtain ⟨⟨el, hel⟩, -⟩ := hL.replies _ _ _ _ hc
    exact (List.getElem?_eq_some_iff.1 hel).1
  | appendEntries src dst args | appendEntriesReply src dst saved reply => simp [Call.voteKey] at hk

/-! ## A new election -/

theorem voteRequests_startElection (cm : ConsensusModule) :
    voteRequests cm.startElection = cm.peerIds.map fun p =>
      .requestVote cm.id cm.elections.length p ⟨cm.currentTerm + 1, cm.id⟩ := by
  simp [voteRequests]

theorem Ledger.startElection (hL : Ledger R tr s) (hw : WellFormed R s) (hm : m ∈ R.ids)
    (cm : ConsensusModule) (hid : cm.id = m) (hp : cm.peerIds = (s.modules m).peerIds)
    (he : cm.elections = (s.modules m).elections) {t : Machine.Step Cluster Event}
    (hv : voteOf t.src t.event = some ⟨m, cm.currentTerm + 1, m⟩) :
    Ledger R (t :: tr) ((s.setModule m cm.startElection).post (voteRequests cm.startElection)) := by
  have hpeers : cm.peerIds.Nodup := by
    rw [hp, (hw.peers m hm).nodup_iff]
    exact R.nodup.erase m
  have hnew : ∀ c ∈ voteRequests cm.startElection, ∃ p ∈ cm.peerIds,
      c = .requestVote m cm.elections.length p ⟨cm.currentTerm + 1, m⟩ := by
    intro c hc
    rw [voteRequests_startElection, List.mem_map] at hc
    obtain ⟨p, hp, rfl⟩ := hc
    exact ⟨p, hp, by rw [hid]⟩
  have hkeys : (voteRequests cm.startElection).filterMap Call.voteKey =
      cm.peerIds.map fun p => (m, cm.elections.length, p) := by
    rw [voteRequests_startElection, hid, List.filterMap_map, ← List.filterMap_eq_map]
    rfl
  have hsame : ∀ x, x ≠ m → ((s.setModule m cm.startElection).modules x).elections =
      (s.modules x).elections := fun x hx => by rw [setModule_modules_ne _ _ _ hx]
  -- An election that had started keeps its closure.
  have hold : ∀ (x : Int32) (k : Nat) (el : Election), (s.modules x).elections[k]? = some el →
      ((s.setModule m cm.startElection).modules x).elections[k]? = some el := by
    intro x k el hel
    by_cases hx : x = m
    · subst hx
      have hlt := (List.getElem?_eq_some_iff.1 hel).1
      simp [he, List.getElem?_append_left hlt, hel]
    · rw [hsame x hx, hel]
  refine ⟨?_, fun x k q args hc => ?_, fun x k q reply hc => ?_, fun x hx k el hel => ?_⟩
  · -- The new keys are distinct, and their election is new.
    simp only [voteKeys, post_inFlight, setModule_inFlight, List.filterMap_append, hkeys]
    refine hL.keys.append (hpeers.map fun _ _ h => by simpa using h) ?_
    intro key hkey hkey'
    obtain ⟨p, -, rfl⟩ := List.mem_map.1 hkey'
    have hlt := hL.lt_of_mem_voteKeys hkey
    rw [he] at hlt
    exact lt_irrefl _ hlt
  · rcases List.mem_append.1 hc with hc | hc
    · obtain ⟨el, hel, ht⟩ := hL.requests x k q args hc
      exact ⟨el, hold x k el hel, ht⟩
    · obtain ⟨p, -, heq⟩ := hnew _ hc
      cases heq
      exact ⟨⟨cm.currentTerm + 1, 1⟩, by simp, rfl⟩
  · rcases List.mem_append.1 hc with hc | hc
    · obtain ⟨⟨el, hel⟩, hg⟩ := hL.replies x k q reply hc
      exact ⟨⟨el, hold x k el hel⟩, fun h => (hg h).cons t⟩
    · obtain ⟨p, -, heq⟩ := hnew _ hc
      cases heq
  · by_cases hnewel : x = m ∧ k = cm.elections.length
    · obtain ⟨rfl, rfl⟩ := hnewel
      obtain rfl : (⟨cm.currentTerm + 1, 1⟩ : Election) = el := by simpa using hel
      exact ⟨[], List.nodup_nil, by simp, by simp, by simp, rfl, ⟨t, List.mem_cons_self, hv⟩⟩
    · have hel' : (s.modules x).elections[k]? = some el := by
        by_cases hx' : x = m
        · subst hx'
          have hk : k ≠ (s.modules x).elections.length := fun hk => hnewel ⟨rfl, by rw [hk, he]⟩
          have hel : ((s.modules x).elections ++ [⟨cm.currentTerm + 1, 1⟩])[k]? = some el := by
            simpa [he] using hel
          have hlt := (List.getElem?_eq_some_iff.1 hel).1
          rw [List.getElem?_append_left (by simp at hlt; omega)] at hel
          exact hel
        · rwa [post_modules, hsame x hx'] at hel
      obtain ⟨S, hS⟩ := hL.counted x hx k el hel'
      refine ⟨S, hS.cons t fun q hkey => ?_⟩
      simp only [voteKeys, post_inFlight, setModule_inFlight, List.filterMap_append, hkeys] at hkey
      rcases List.mem_append.1 hkey with hkey | hkey
      · exact hkey
      · obtain ⟨p, -, heq⟩ := List.mem_map.1 hkey
        simp only [Prod.mk.injEq] at heq
        exact (hnewel ⟨heq.1.symm, heq.2.1.symm⟩).elim

/-! ## A vote is asked for -/

/-- A request that is answered becomes a reply with the same key. -/
theorem Ledger.requestVote (hL : Ledger R tr s) (hw : WellFormed R s) {args : RequestVoteArgs}
    (hc : .requestVote m k q args ∈ s.inFlight)
    (helections : ∀ x, (s'.modules x).elections = (s.modules x).elections)
    (hfl : s'.inFlight = s.inFlight.erase (.requestVote m k q args) ++
      ((s.modules q).requestVote args).2.toList.map (.requestVoteReply m k q)) :
    Ledger R (⟨s, .deliver (.requestVote m k q args), s'⟩ :: tr) s' := by
  set c : Call := .requestVote m k q args
  have hperm : s.voteKeys.Perm ((m, k, q) :: (s.take c).voteKeys) := voteKeys_perm hc rfl
  have hsub : s'.voteKeys.Subperm s.voteKeys := by
    cases hrv : ((s.modules q).requestVote args).2 with
    | none => simpa [voteKeys, hfl, hrv] using (voteKeys_take s c).subperm
    | some reply =>
      have hk : s'.voteKeys = (s.take c).voteKeys ++ [(m, k, q)] := by
        simp [voteKeys, hfl, hrv, Call.voteKey]
      rw [hk]
      exact ((List.perm_append_singleton _ _).trans hperm.symm).subperm
  refine ⟨?_, fun x k' p args' hc' => ?_, fun x k' p reply hc' => ?_, fun x hx k' el hel => ?_⟩
  · obtain ⟨l, hl, hls⟩ := hsub
    exact hl.nodup_iff.1 (hL.keys.sublist hls)
  · rw [hfl] at hc'
    rw [helections]
    rcases List.mem_append.1 hc' with hc' | hc'
    · exact hL.requests x k' p args' (List.mem_of_mem_erase hc')
    · simp at hc'
  · rw [hfl] at hc'
    rw [helections]
    rcases List.mem_append.1 hc' with hc' | hc'
    · obtain ⟨hel, hg⟩ := hL.replies x k' p reply (List.mem_of_mem_erase hc')
      exact ⟨hel, fun h => (hg h).cons _⟩
    · obtain ⟨reply', hrv, heq⟩ := List.mem_map.1 hc'
      cases heq
      rw [Option.mem_toList] at hrv
      obtain ⟨el, hel, -⟩ := hL.requests _ _ _ _ hc
      refine ⟨⟨el, hel⟩, fun hgr => ⟨_, List.mem_cons_self, args, rfl, ?_⟩⟩
      have hnamed : args.candidateID = m := hw.named _ hc
      obtain ⟨T, g⟩ := reply
      obtain rfl : g = true := hgr
      simp [voteOf, hrv, hnamed, c]
  · rw [helections] at hel
    obtain ⟨S, hS⟩ := hL.counted x hx k' el hel
    exact ⟨S, hS.cons _ fun p hkey => hsub.subset hkey⟩

/-! ## A vote is counted -/

/-- Counting a grant of the `k`-th election of `m` adds its peer to the counted ones. -/
theorem Ledger.countVote (hL : Ledger R tr s) (hw : WellFormed R s) {reply : RequestVoteReply}
    {el : Election} (hc : .requestVoteReply m k q reply ∈ s.inFlight)
    (hel : (s.modules m).elections[k]? = some el) (hT : reply.term = el.savedCurrentTerm)
    (hg : reply.voteGranted = true) (hcm : cm.elections =
      (s.modules m).elections.set k { el with votesReceived := el.votesReceived + 1 })
    (t : Machine.Step Cluster Event) :
    Ledger R (t :: tr) ((s.take (.requestVoteReply m k q reply)).setModule m cm) := by
  set c : Call := .requestVoteReply m k q reply
  have hlt := (List.getElem?_eq_some_iff.1 hel).1
  have hkey : (m, k, q) ∈ s.voteKeys := mem_voteKeys.2 ⟨c, hc, rfl⟩
  have hgone : (m, k, q) ∉ (s.take c).voteKeys := notMem_voteKeys_take hL hc rfl
  -- Closures keep the term they started in; only the counter of this election moves.
  have hold : ∀ (x : Int32) (k' : Nat) (el' : Election), (s.modules x).elections[k']? = some el' →
      ∃ el'', (((s.take c).setModule m cm).modules x).elections[k']? = some el'' ∧
        el''.savedCurrentTerm = el'.savedCurrentTerm := by
    intro x k' el' hel'
    by_cases hx : x = m
    · subst hx
      by_cases hk : k = k'
      · subst hk
        obtain rfl := Option.some.inj (hel.symm.trans hel')
        exact ⟨{ el with votesReceived := el.votesReceived + 1 }, by simp [hcm, hlt], rfl⟩
      · exact ⟨el', by simp [hcm, List.getElem?_set_ne hk, hel'], rfl⟩
    · exact ⟨el', by simp [setModule_modules_ne _ _ _ hx, hel'], rfl⟩
  refine ⟨hL.keys.sublist (voteKeys_take s c), fun x k' p args hc' => ?_,
    fun x k' p reply' hc' => ?_, fun x hx k' el' hel' => ?_⟩
  · obtain ⟨el', hel', ht⟩ := hL.requests x k' p args (List.mem_of_mem_erase hc')
    obtain ⟨el'', hel'', hs⟩ := hold x k' el' hel'
    exact ⟨el'', hel'', ht.trans hs.symm⟩
  · obtain ⟨⟨el', hel'⟩, hgr⟩ := hL.replies x k' p reply' (List.mem_of_mem_erase hc')
    obtain ⟨el'', hel'', -⟩ := hold x k' el' hel'
    exact ⟨⟨el'', hel''⟩, fun h => (hgr h).cons t⟩
  · by_cases hthis : x = m ∧ k' = k
    · obtain ⟨rfl, rfl⟩ := hthis
      obtain rfl : { el with votesReceived := el.votesReceived + 1 } = el' := by
        simpa [hcm, hlt] using hel'
      obtain ⟨S, hS⟩ := hL.counted x hx k' el hel
      have hq : q ∉ S := fun hq => hS.settled q hq hkey
      refine ⟨q :: S, List.nodup_cons.2 ⟨hq, hS.nodup⟩, ?_, ?_, ?_, by simp [hS.votes],
        hS.self.cons t⟩
      · simpa using ⟨(hw.calls _ hc).2, hS.peers⟩
      · rintro p (_ | ⟨_, hp⟩)
        · have hgr := (hL.replies _ _ _ _ hc).2 hg
          rw [hT] at hgr
          exact hgr.cons t
        · exact (hS.granted p hp).cons t
      · rintro p (_ | ⟨_, hp⟩) hk
        · exact hgone hk
        · exact hS.settled p hp ((voteKeys_take s c).mem hk)
    · have hel'' : (s.modules x).elections[k']? = some el' := by
        by_cases hx' : x = m
        · subst hx'
          have hk : k ≠ k' := fun hk => hthis ⟨rfl, hk.symm⟩
          simpa [hcm, List.getElem?_set_ne hk] using hel'
        · simpa [setModule_modules_ne _ _ _ hx'] using hel'
      obtain ⟨S, hS⟩ := hL.counted x hx k' el' hel''
      exact ⟨S, hS.cons t fun p => (voteKeys_take s c).mem⟩

/-! ## Every run -/

/-- **Every step keeps the ledger.** -/
theorem Ledger.step (hL : Ledger R tr s) (hw : WellFormed R s) (h : step R s e = some s') :
    Ledger R (⟨s, e, s'⟩ :: tr) s' := by
  obtain ⟨m, cm', sent, hruns, hs', htaken, hm⟩ := step_runs h
  have helections : cm'.elections = (s.modules m).elections → ∀ x,
      (s'.modules x).elections = (s.modules x).elections := by
    intro hcm x
    by_cases hx : x = m
    · subst hx hs'
      simpa using hcm
    · simp [hs', hx]
  have hquiet : cm'.elections = (s.modules m).elections → (∀ c ∈ sent, c.voteKey = none) →
      Ledger R (⟨s, e, s'⟩ :: tr) s' := by
    intro hcm hnone
    refine hL.frame _ (helections hcm) ?_ fun c hc hkey => ?_
    · rw [hs', voteKeys, List.filterMap_append, List.filterMap_eq_nil_iff.2 hnone, List.append_nil]
      exact (List.diff_sublist _ _).filterMap _
    · rw [hs'] at hc
      rcases List.mem_append.1 hc with hc | hc
      · exact List.diff_subset _ _ hc
      · exact absurd (hnone c hc) hkey
  cases hruns with
  | timerStart | bailOut | keepWaiting | lose | unknownReply =>
    exact hquiet rfl (List.forall_mem_nil _)
  | @startElection _ _ k elapsed hk ha =>
    subst hs'
    exact hL.startElection hw (hm rfl) (.stopTimer _ k) (hw.id m (hm rfl)) rfl rfl
      (t := ⟨s, .timerTick m k elapsed, _⟩) (by simp [voteOf, hk, ha])
  | sendHeartbeats => exact hquiet rfl (by simp [heartbeats, Call.voteKey])
  | requestVote =>
    exact hL.requestVote hw (htaken List.mem_cons_self)
      (helections ((s.modules m).requestVote_static _).2.2) (by simp [hs'])
  | @voteReply _ dst k reply el hel =>
    rcases (s.modules m).handleVoteReply_elections k el reply with hcm | ⟨hT, hg, hcm⟩
    · exact hquiet hcm (List.forall_mem_nil _)
    · rw [hs']
      simpa [take, setModule] using hL.countVote hw (htaken List.mem_cons_self) hel hT hg hcm _
  | appendEntries =>
    obtain ⟨_, rfl, -, -, hcm, -⟩ := (s.modules m).appendEntries_cases _
    exact hquiet hcm (by simp [Call.voteKey])
  | heartbeatReply =>
    exact hquiet ((s.modules m).handleHeartbeatReply_static _ _).2.2 (List.forall_mem_nil _)

/-- **The counters are honest in every run.** -/
theorem ledger_of_run (h : (protocol R).Run tr s) : Ledger R tr s := by
  induction h with
  | init h =>
    obtain ⟨h₀, hm⟩ := h
    refine ⟨by simp [voteKeys, h₀], by simp [h₀], by simp [h₀], fun m hm' k el hel => ?_⟩
    obtain ⟨p, -, hp⟩ := hm m hm'
    simp [hp, newConsensusModule] at hel
  | step hr hn ih => exact ih.step (wellFormed_of_run hr) hn

end Dirigent.LeaderElection
