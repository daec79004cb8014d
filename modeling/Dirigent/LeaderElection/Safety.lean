import Dirigent.LeaderElection.Ledger

/-!
# Election safety

At most one replica ever becomes the leader of a term, in every run without a reply that comes
too late (`LateReply`). What makes a reply too late is that its handler compares it with the term
saved when the request was sent: a grant of an old election may complete a quorum after the
candidate has moved to a new term, and a reply from a newer term may put the module into a term
in which it has already voted.

A module may still forget a vote: a candidate that hears a heartbeat of its own term, or a vote
reply of it, becomes a follower that has not voted. The invariant (`SafeInv`) says why this does
no harm. The only vote it can forget is the one for itself, and a module that has given up its
candidacy cannot win the term any more; a leader gives up its term only when it hears another
leader of it. So the first two winners of a term would need a voter that is neither.

That every leader has a majority of one of its elections (`elected_of_entersLeader`) holds in all
runs.
-/

/-! ## Quorums -/

/-- Two majorities of one set have a common member. -/
theorem exists_mem_of_majorities {α : Type*} {ids Q Q' : List α} (hQ : Q.Nodup) (hQ' : Q'.Nodup)
    (hsub : Q ⊆ ids) (hsub' : Q' ⊆ ids) (hmaj : ids.length < 2 * Q.length)
    (hmaj' : ids.length < 2 * Q'.length) : ∃ q ∈ Q, q ∈ Q' := by
  by_contra hno
  push Not at hno
  have hnodup : (Q ++ Q').Nodup := hQ.append hQ' fun q hq hq' => hno q hq hq'
  have hlen := (List.subperm_of_subset hnodup (List.append_subset.2 ⟨hsub, hsub'⟩)).length_le
  rw [List.length_append] at hlen
  omega

namespace Dirigent.LeaderElection

open Cluster

variable {R : Replicas} {s s' : Cluster} {e : Event} {tr : List (Machine.Step Cluster Event)}

/-! ## Entering leadership -/

/-- In the step `t`, `m` becomes the leader of `T`. -/
def EntersLeader (t : Machine.Step Cluster Event) (m T : Int32) : Prop :=
  (t.src.modules m).state ≠ .leader ∧ (t.dst.modules m).state = .leader ∧
    (t.dst.modules m).currentTerm = T

instance (t : Machine.Step Cluster Event) (m T : Int32) : Decidable (EntersLeader t m T) :=
  inferInstanceAs (Decidable (_ ∧ _ ∧ _))

/-- In one of the steps, `m` became the leader of `T`. -/
def Entered (tr : List (Machine.Step Cluster Event)) (m T : Int32) : Prop :=
  ∃ t ∈ tr, EntersLeader t m T

instance (tr : List (Machine.Step Cluster Event)) (m T : Int32) : Decidable (Entered tr m T) :=
  inferInstanceAs (Decidable (∃ t ∈ tr, _))

@[simp] theorem not_entered_nil (m T : Int32) : ¬ Entered [] m T := by simp [Entered]

theorem entered_cons {m T : Int32} :
    Entered (⟨s, e, s'⟩ :: tr) m T ↔ EntersLeader ⟨s, e, s'⟩ m T ∨ Entered tr m T := by
  simp [Entered]

/-- The steps in which a reply comes too late, and an election at the largest `int32`. -/
def LateReply (s : Cluster) : Event → Prop
  | .timerTick m k elapsed =>
    voteOf s (.timerTick m k elapsed) ≠ none ∧ (s.modules m).currentTerm = Int32.maxValue
  | .deliver (.requestVoteReply src k _ reply) =>
    (s.modules src).state = .candidate ∧ ∃ el ∈ (s.modules src).elections[k]?,
      (el.savedCurrentTerm < reply.term ∧ reply.term < (s.modules src).currentTerm ∨
        -- a grant that completes the quorum of an election of another term
        reply.term = el.savedCurrentTerm ∧ reply.voteGranted = true ∧
          (s.modules src).peerIds.length + 1 < (el.votesReceived + 1) * 2 ∧
          el.savedCurrentTerm ≠ (s.modules src).currentTerm)
  | .deliver (.appendEntriesReply src _ saved reply) =>
    saved < reply.term ∧ (reply.term < (s.modules src).currentTerm ∨
      reply.term = (s.modules src).currentTerm ∧ (s.modules src).votedFor ≠ nobody)
  | _ => False

instance (s : Cluster) : (e : Event) → Decidable (LateReply s e)
  | .timerStart .. | .sendHeartbeats .. | .lose .. => inferInstanceAs (Decidable False)
  | .timerTick .. => inferInstanceAs (Decidable (_ ∧ _))
  | .deliver (.requestVote ..) => inferInstanceAs (Decidable False)
  | .deliver (.appendEntries ..) => inferInstanceAs (Decidable False)
  | .deliver (.requestVoteReply ..) => inferInstanceAs (Decidable (_ ∧ _))
  | .deliver (.appendEntriesReply ..) => inferInstanceAs (Decidable (_ ∧ _))

theorem LateReply.of_termGoesBack (hb : TermGoesBack s e) : LateReply s e := by
  unfold TermGoesBack at hb
  split at hb
  · exact hb
  · obtain ⟨hst, hlt, el, hel, hsaved⟩ := hb
    exact ⟨hst, el, hel, .inl ⟨hsaved, hlt⟩⟩
  · exact ⟨hb.1, .inl hb.2⟩
  · exact hb.elim

/-- Without a late reply, a module that falls back to follower raises its term, or was not a
follower, or had not voted. -/
theorem Why.lt_or_active {m T : Int32} (why : Why s e m T) (hl : ¬ LateReply s e) :
    (s.modules m).currentTerm < T ∨ T = (s.modules m).currentTerm ∧
      ((s.modules m).votedFor = nobody ∨
        (s.modules m).state = .candidate ∨ (s.modules m).state = .leader) := by
  have hle := why.le fun hb => hl (.of_termGoesBack hb)
  by_cases hlt : (s.modules m).currentTerm < T
  · exact .inl hlt
  have heq : T = (s.modules m).currentTerm := by grind
  refine .inr ⟨heq, ?_⟩
  cases why with
  | ahead h => exact absurd h hlt
  | heartbeat src args he hT heq' hst => exact .inr hst
  | voteReply k dst reply el he hel hT hsaved hst => exact .inr (.inl hst)
  | heartbeatReply dst saved reply he hT hsaved =>
    subst he hT
    left
    by_contra hv
    exact hl ⟨hsaved, .inr ⟨heq, hv⟩⟩

theorem EntersLeader.effect (h : step R s e = some s') {m T : Int32}
    (hent : EntersLeader ⟨s, e, s'⟩ m T) :
    ∃ k q reply el, e = .deliver (.requestVoteReply m k q reply) ∧
      (s.modules m).elections[k]? = some el ∧ (s.modules m).state = .candidate ∧
      reply.term = el.savedCurrentTerm ∧ reply.voteGranted = true ∧
      (s.modules m).peerIds.length + 1 < (el.votesReceived + 1) * 2 ∧
      (s.modules m).currentTerm = T := by
  obtain ⟨hno, hyes, hT⟩ := hent
  obtain ⟨x, hframe, heff⟩ := step_effect h
  by_cases hx : m = x
  · subst hx
    cases heff with
    | keep hs => exact absurd (hs.symm.trans hyes) hno
    | follow hs | campaign _ _ _ hs => simp [hs] at hyes
    | grant _ _ _ _ _ _ hcase =>
      rcases hcase with ⟨-, hs⟩ | ⟨-, hs, -⟩
      · simp [hs] at hyes
      · exact absurd (hs.symm.trans hyes) hno
    | win k q reply el he hel hst hTe hg hq hs ht =>
      exact ⟨k, q, reply, el, he, hel, hst, hTe, hg, hq, ht.symm.trans hT⟩
  · simp only [hframe m hx] at hyes
    exact absurd hyes hno

/-! ## The invariant -/

/-- A majority of the replicas voted for `m` in `T`, itself included. -/
def Quorum (R : Replicas) (tr : List (Machine.Step Cluster Event)) (m T : Int32) : Prop :=
  ∃ Q : List Int32, Q.Nodup ∧ Q ⊆ R.ids ∧ m ∈ Q ∧ (∀ q ∈ Q, Cast tr ⟨q, T, m⟩) ∧
    R.ids.length < 2 * Q.length

theorem Quorum.cons {m T : Int32} (h : Quorum R tr m T) (t : Machine.Step Cluster Event) :
    Quorum R (t :: tr) m T := by
  obtain ⟨Q, hnd, hsub, hm, hc, hmaj⟩ := h
  exact ⟨Q, hnd, hsub, hm, fun q hq => (hc q hq).cons t, hmaj⟩

/-- The `k`-th election of `m`, in the term `T`, has a majority: `m` itself and the distinct peers
`S`, each of which granted the request of that election. -/
structure Elected (R : Replicas) (tr : List (Machine.Step Cluster Event)) (m : Int32) (k : Nat)
    (T : Int32) (S : List Int32) : Prop where
  nodup : S.Nodup
  peers : ∀ q ∈ S, q ∈ R.ids ∧ q ≠ m
  self : m ∈ R.ids ∧ Cast tr ⟨m, T, m⟩
  granted : ∀ q ∈ S, Granted tr m k q T
  majority : R.ids.length < 2 * (S.length + 1)

theorem Elected.quorum {m T : Int32} {k : Nat} {S : List Int32} (h : Elected R tr m k T S) :
    Quorum R tr m T := by
  refine ⟨m :: S, List.nodup_cons.2 ⟨fun hm => (h.peers m hm).2 rfl, h.nodup⟩, ?_, by simp, ?_, ?_⟩
  · exact List.cons_subset.2 ⟨h.self.1, fun q hq => (h.peers q hq).1⟩
  · simpa using ⟨h.self.2, fun q hq => (h.granted q hq).cast⟩
  · simpa using h.majority

theorem elected_of_win (hw : WellFormed R s) (hL : Ledger R tr s) {m : Int32} {k : Nat}
    {q : Int32} {reply : RequestVoteReply} {el : Election}
    (hc : .requestVoteReply m k q reply ∈ s.inFlight)
    (hel : (s.modules m).elections[k]? = some el) (hT : reply.term = el.savedCurrentTerm)
    (hg : reply.voteGranted = true)
    (hq : (s.modules m).peerIds.length + 1 < (el.votesReceived + 1) * 2) :
    ∃ S, q ∈ S ∧ Elected R tr m k el.savedCurrentTerm S := by
  obtain ⟨(hm : m ∈ R.ids), (hdst : q ∈ R.ids.erase m)⟩ := hw.calls _ hc
  obtain ⟨S, hS⟩ := hL.counted m hm k el hel
  have hgr := (hL.replies m k q reply hc).2 hg
  rw [hT] at hgr
  have hpeer : ∀ p ∈ R.ids.erase m, p ∈ R.ids ∧ p ≠ m := fun p hp =>
    ((R.nodup.mem_erase_iff).1 hp).symm
  have hqS : q ∉ S := fun h => hS.settled q h (mem_voteKeys.2 ⟨_, hc, rfl⟩)
  refine ⟨q :: S, by simp, List.nodup_cons.2 ⟨hqS, hS.nodup⟩, ?_, ⟨hm, hS.self⟩, ?_, ?_⟩
  · simpa using ⟨hpeer q hdst, fun p hp => hpeer p (hS.peers p hp)⟩
  · simpa using ⟨hgr, hS.granted⟩
  · have hpeers := (hw.peers m hm).length_eq
    rw [List.length_erase_of_mem hm] at hpeers
    have hpos := List.length_pos_of_mem hm
    have hvotes := hS.votes
    simp only [List.length_cons]
    omega

/-- **Leadership needs a quorum.** Who becomes the leader does so by a reply to one of its
elections, for which a majority has voted by then: itself, and peers that granted the request of
that election with the term it was started in. -/
theorem elected_of_entersLeader (h : (protocol R).Run tr s) {t : Machine.Step Cluster Event}
    (ht : t ∈ tr) {m T : Int32} (hent : EntersLeader t m T) :
    ∃ before, before <:+ tr ∧ (protocol R).Run before t.src ∧ ∃ k q reply el S,
      t.event = .deliver (.requestVoteReply m k q reply) ∧ q ∈ S ∧
      (t.src.modules m).elections[k]? = some el ∧ Elected R before m k el.savedCurrentTerm S := by
  obtain ⟨before, hsuffix, hbefore⟩ := h.src ht
  have hnext := h.next_of_mem ht
  obtain ⟨k, q, reply, el, he, hel, -, hT, hg, hq, -⟩ := EntersLeader.effect hnext hent
  have hc : .requestVoteReply m k q reply ∈ t.src.inFlight := by
    rw [he] at hnext
    exact (step_deliver (R := R) hnext).1
  obtain ⟨S, hqS, hS⟩ :=
    elected_of_win (wellFormed_of_run hbefore) (ledger_of_run hbefore) hc hel hT hg hq
  exact ⟨before, hsuffix, hbefore, k, q, reply, el, S, he, hqS, hel, hS⟩

theorem elected_quietElection : ∃ tr s, (protocol threeReplicas).Run tr s ∧ ∃ t ∈ tr,
    EntersLeader t 1 1 ∧ ∃ k T S, Elected threeReplicas tr 1 k T S := by
  obtain ⟨tr, s, hrun, t, ht, hent⟩ := Machine.exists_run_of_play quietElection
    (P := fun tr _ => Entered tr 1 1) threeFresh_init (by decide +kernel)
  obtain ⟨before, hsuffix, -, k, q, reply, el, S, -, -, -, hS⟩ :=
    elected_of_entersLeader hrun ht hent
  exact ⟨tr, s, hrun, t, ht, hent, k, _, S, hS.nodup, hS.peers,
    ⟨hS.self.1, hS.self.2.imp fun _ h => ⟨hsuffix.subset h.1, h.2⟩⟩,
    fun q hq => (hS.granted q hq).imp fun _ h => ⟨hsuffix.subset h.1, h.2⟩, hS.majority⟩

structure SafeInv (R : Replicas) (tr : List (Machine.Step Cluster Event)) (s : Cluster) :
    Prop where
  /-- A voter has reached the term of its vote. -/
  le : ∀ v, Cast tr v → v.term ≤ (s.modules v.voter).currentTerm
  /-- A candidate or leader has voted for itself. -/
  active : ∀ m ∈ R.ids, (s.modules m).state = .candidate ∨ (s.modules m).state = .leader →
    (s.modules m).votedFor = m
  /-- In its present term a voter remembers its vote, or it was for itself and is given up. -/
  present : ∀ v, Cast tr v → v.term = (s.modules v.voter).currentTerm →
    (s.modules v.voter).votedFor = v.candidate ∨
      v.candidate = v.voter ∧ (s.modules v.voter).state = .follower
  /-- Of two different votes of one term, one was for the voter itself. -/
  pair : ∀ q T c c', Cast tr ⟨q, T, c⟩ → Cast tr ⟨q, T, c'⟩ → c = c' ∨ c = q ∨ c' = q
  /-- A leader has entered its term. -/
  led : ∀ m ∈ R.ids, (s.modules m).state = .leader → Entered tr m (s.modules m).currentTerm
  /-- A heartbeat comes from a replica that entered its term. -/
  heart : ∀ src dst args, .appendEntries src dst args ∈ s.inFlight → Entered tr src args.term
  quorum : ∀ m T, Entered tr m T → Quorum R tr m T
  /-- A leader gives up its term only for another leader of it. -/
  still : ∀ m T, Entered tr m T → (s.modules m).currentTerm = T →
    (s.modules m).state = .leader ∨ ∃ m', m' ≠ m ∧ Entered tr m' T
  /-- A leader votes for another candidate of its term only after another leader of it. -/
  turned : ∀ q T c, Cast tr ⟨q, T, c⟩ → c ≠ q → Entered tr q T →
    ∃ m', m' ≠ q ∧ Entered tr m' T
  unique : ∀ a b T, Entered tr a T → Entered tr b T → a = b

namespace SafeInv

variable (hI : SafeInv R tr s) (hr : (protocol R).Run tr s) (h : step R s e = some s')
  (hl : ¬ LateReply s e)

include hI in
theorem entered_le {m T : Int32} (hent : Entered tr m T) :
    m ∈ R.ids ∧ T ≤ (s.modules m).currentTerm := by
  obtain ⟨Q, -, hsub, hm, hc, -⟩ := hI.quorum m T hent
  exact ⟨hsub hm, hI.le _ (hc m hm)⟩

include h hl in
theorem mono (x : Int32) : (s.modules x).currentTerm ≤ (s'.modules x).currentTerm :=
  term_le_of_step h (fun hb => hl (.of_termGoesBack hb)) x

include hI hr h in
theorem step_active (m : Int32) (hm : m ∈ R.ids)
    (hst : (s'.modules m).state = .candidate ∨ (s'.modules m).state = .leader) :
    (s'.modules m).votedFor = m := by
  obtain ⟨x, hframe, heff⟩ := step_effect h
  by_cases hx : m = x
  · subst hx
    cases heff with
    | keep hs _ hv => rw [hv]; exact hI.active m hm (hs ▸ hst)
    | follow hs => simp [hs] at hst
    | grant src k args he hvote hv hcase =>
      rcases hcase with ⟨-, hs⟩ | ⟨-, hs, hno | hsame⟩
      · simp [hs] at hst
      · have hself := hI.active m hm (hs ▸ hst)
        exact absurd (hself.symm.trans hno) (candidate_ne_nobody hm)
      · rw [hv, ← hsame]
        exact hI.active m hm (hs ▸ hst)
    | campaign k elapsed he hs ht hv => rw [hv, (wellFormed_of_run hr).id m hm]
    | win k q reply el he hel hst' _ _ _ _ _ hv => rw [hv]; exact hI.active m hm (.inl hst')
  · rw [hframe m hx] at hst ⊢
    exact hI.active m hm hst

include hI hr h hl in
/-- What an earlier vote of the voter's present term has become. -/
theorem step_present_old (v : Vote) (hv : Cast tr v)
    (hterm : v.term = (s'.modules v.voter).currentTerm) :
    (s'.modules v.voter).votedFor = v.candidate ∨
      v.candidate = v.voter ∧ (s'.modules v.voter).state = .follower := by
  have hmono := mono h hl v.voter
  have hle := hI.le v hv
  have hcur : v.term = (s.modules v.voter).currentTerm := by grind
  have hne : v.candidate ≠ nobody := candidate_ne_nobody (cast_mem hr hv).2
  have hold := hI.present v hv hcur
  have hvoter := (cast_mem hr hv).1
  obtain ⟨x, hframe, heff⟩ := step_effect h
  by_cases hx : v.voter = x
  · rw [hx] at hterm hcur hold hvoter ⊢
    cases heff with
    | keep hs _ hvf => rwa [hs, hvf]
    | follow hs hvf why =>
      right
      rcases why.lt_or_active hl with hlt | ⟨-, hno | hact⟩
      · grind
      · rcases hold with hold | ⟨hself, -⟩
        · exact absurd (hold.symm.trans hno) hne
        · exact ⟨hself, hs⟩
      · rcases hold with hold | ⟨hself, -⟩
        · exact ⟨by rw [← hold, hI.active x hvoter hact], hs⟩
        · exact ⟨hself, hs⟩
    | grant src k args he hvote hvf hcase =>
      rcases hcase with ⟨hlt, -⟩ | ⟨-, hs, hno | hsame⟩
      · grind
      · rcases hold with hold | ⟨hself, hfol⟩
        · exact absurd (hold.symm.trans hno) hne
        · exact .inr ⟨hself, hs.trans hfol⟩
      · rcases hold with hold | ⟨hself, hfol⟩
        · exact .inl (by rw [hvf, ← hsame, hold])
        · exact .inr ⟨hself, hs.trans hfol⟩
    | campaign k elapsed he _ ht =>
      grind
    | win _ _ _ _ _ _ hst _ _ _ _ _ hvf =>
      rcases hold with hold | ⟨-, hfol⟩
      · exact .inl (by rw [hvf, hold])
      · simp [hst] at hfol
  · rwa [hframe _ hx]

include hI hr h hl in
theorem step_pair (q T c c' : Int32) (hv : Cast (⟨s, e, s'⟩ :: tr) ⟨q, T, c⟩)
    (hv' : Cast (⟨s, e, s'⟩ :: tr) ⟨q, T, c'⟩) : c = c' ∨ c = q ∨ c' = q := by
  have hw := wellFormed_of_run hr
  -- A new vote against an earlier one of the same term.
  have hnew : ∀ c c', voteOf s e = some ⟨q, T, c⟩ → Cast tr ⟨q, T, c'⟩ → c = c' ∨ c' = q := by
    intro c c' hv hv'
    obtain ⟨-, hterm, hvf⟩ := voteOf_spec hw h hv
    rcases step_present_old hI hr h hl _ hv' hterm with hold | ⟨hself, -⟩
    · exact .inl (hvf.symm.trans hold)
    · exact .inr hself
  rcases cast_cons.1 hv with hv | hv <;> rcases cast_cons.1 hv' with hv' | hv'
  · have heq := Option.some.inj (hv.symm.trans hv')
    exact .inl (Vote.mk.inj heq).2.2
  · rcases hnew c c' hv hv' with h | h
    · exact .inl h
    · exact .inr (.inr h)
  · rcases hnew c' c hv' hv with h | h
    · exact .inl h.symm
    · exact .inr (.inl h)
  · exact hI.pair q T c c' hv hv'

include hI h in
theorem step_led (m : Int32) (hm : m ∈ R.ids) (hst : (s'.modules m).state = .leader) :
    Entered (⟨s, e, s'⟩ :: tr) m (s'.modules m).currentTerm := by
  by_cases hold : (s.modules m).state = .leader
  · have hterm : (s'.modules m).currentTerm = (s.modules m).currentTerm := by
      obtain ⟨x, hframe, heff⟩ := step_effect h
      by_cases hx : m = x
      · subst hx
        cases heff with
        | keep _ ht => exact ht
        | follow hs | campaign _ _ _ hs => simp [hs] at hst
        | grant _ _ _ _ _ _ hcase =>
          rcases hcase with ⟨-, hs⟩ | ⟨ht, -⟩
          · simp [hs] at hst
          · exact ht
        | win _ _ _ _ _ _ hcand => simp [hcand] at hold
      · rw [hframe m hx]
    rw [hterm]
    exact entered_cons.2 (.inr (hI.led m hm hold))
  · exact entered_cons.2 (.inl ⟨hold, hst, rfl⟩)

include hI hr h in
theorem step_heart (src dst : Int32) (args : AppendEntriesArgs)
    (hc : .appendEntries src dst args ∈ s'.inFlight) :
    Entered (⟨s, e, s'⟩ :: tr) src args.term := by
  refine entered_cons.2 (.inr ?_)
  rcases step_heartbeat (wellFormed_of_run hr) h hc with hc | ⟨-, hsrc, hst, hterm⟩
  · exact hI.heart src dst args hc
  · exact hterm ▸ hI.led src hsrc hst

include hr h hl in
/-- A replica that enters `T` was a candidate of `T`, and has a quorum in `T`. -/
theorem quorum_of_enters {m T : Int32} (hent : EntersLeader ⟨s, e, s'⟩ m T) :
    Quorum R tr m T ∧ (s.modules m).state = .candidate ∧ (s.modules m).currentTerm = T := by
  obtain ⟨k, q, reply, el, rfl, hel, hst, hT, hg, hq, hterm⟩ := hent.effect h
  obtain ⟨hc, -⟩ := step_deliver h
  have hsaved : el.savedCurrentTerm = T := by
    by_contra hne
    exact hl ⟨hst, el, hel, .inr ⟨hT, hg, hq, hterm ▸ hne⟩⟩
  obtain ⟨S, -, hS⟩ := elected_of_win (wellFormed_of_run hr) (ledger_of_run hr) hc hel hT hg hq
  rw [← hsaved]
  exact ⟨hS.quorum, hst, hterm.trans hsaved.symm⟩

include hI hr h hl in
theorem step_still (m T : Int32) (hent : Entered (⟨s, e, s'⟩ :: tr) m T)
    (hterm : (s'.modules m).currentTerm = T) :
    (s'.modules m).state = .leader ∨ ∃ m', m' ≠ m ∧ Entered (⟨s, e, s'⟩ :: tr) m' T := by
  rcases entered_cons.1 hent with hent | hent
  · exact .inl hent.2.1
  obtain ⟨hm, hle⟩ := hI.entered_le hent
  have hmono := mono h hl m
  have hcur : (s.modules m).currentTerm = T := by grind
  rcases hI.still m T hent hcur with hst | ⟨m', hne, hent'⟩
  · obtain ⟨x, hframe, heff⟩ := step_effect h
    by_cases hx : m = x
    · subst hx
      cases heff with
      | keep hs => exact .inl (hs.trans hst)
      | follow hs hv why =>
        -- The leader gives up its own term: only a heartbeat of another leader does that.
        right
        cases why with
        | ahead hlt => grind
        | heartbeat src args he hT =>
          subst he
          obtain ⟨hc, -⟩ := step_deliver h
          have hdst : m ∈ R.ids.erase src := ((wellFormed_of_run hr).calls _ hc).2
          have hne : src ≠ m := fun heq => (R.nodup.mem_erase_iff.1 hdst).1 heq.symm
          have hsrc := hI.heart src m args hc
          rw [hT, hterm] at hsrc
          exact ⟨src, hne, entered_cons.2 (.inr hsrc)⟩
        | voteReply _ _ _ _ _ _ _ _ hcand => simp [hst] at hcand
        | heartbeatReply dst saved reply he hT hsaved =>
          subst he
          have hself := hI.active m hm (.inr hst)
          have hv : (s.modules m).votedFor ≠ nobody := by
            rw [hself]
            exact candidate_ne_nobody hm
          exact absurd ⟨hT ▸ hsaved, .inr ⟨by rw [hT, hterm, hcur], hv⟩⟩ hl
      | grant _ _ _ _ _ _ hcase =>
        rcases hcase with ⟨hlt, -⟩ | ⟨-, hs, -⟩
        · grind
        · exact .inl (hs.trans hst)
      | campaign _ _ _ _ ht => grind
      | win _ _ _ _ _ _ hcand => simp [hst] at hcand
    · rw [hframe m hx]
      exact .inl hst
  · exact .inr ⟨m', hne, entered_cons.2 (.inr hent')⟩

include hI hr h hl in
theorem step_turned (q T c : Int32) (hv : Cast (⟨s, e, s'⟩ :: tr) ⟨q, T, c⟩) (hne : c ≠ q)
    (hent : Entered (⟨s, e, s'⟩ :: tr) q T) :
    ∃ m', m' ≠ q ∧ Entered (⟨s, e, s'⟩ :: tr) m' T := by
  rcases cast_cons.1 hv with hv | hv
  · -- The vote is new: a leader would only vote for itself.
    obtain ⟨⟨hq, -⟩, hterm, hvf⟩ := voteOf_spec (wellFormed_of_run hr) h hv
    rcases step_still hI hr h hl q T hent hterm.symm with hst | hother
    · have hself := step_active hI hr h q hq (.inr hst)
      exact absurd (hvf.symm.trans hself) hne
    · exact hother
  · rcases entered_cons.1 hent with hent | hent
    · -- The leadership is new: a candidate of `T` has voted for nobody else in `T`.
      obtain ⟨-, hst, hterm⟩ := quorum_of_enters hr h hl hent
      have hself := hI.active q (cast_mem hr hv).1 (.inl hst)
      rcases hI.present _ hv hterm.symm with hvf | ⟨-, hfol⟩
      · exact absurd (hvf.symm.trans hself) hne
      · simp [hst] at hfol
    · obtain ⟨m', hm', hent'⟩ := hI.turned q T c hv hne hent
      exact ⟨m', hm', entered_cons.2 (.inr hent')⟩

include hI hr h hl in
/-- **A term that has a leader gets no other.** -/
theorem step_unique_old {a b T : Int32} (ha : Entered tr a T)
    (hb : EntersLeader ⟨s, e, s'⟩ b T) : a = b := by
  obtain ⟨Q, hnd, hsub, -, hcast, hmaj⟩ := hI.quorum a T ha
  obtain ⟨⟨Q', hnd', hsub', -, hcast', hmaj'⟩, hst, hterm⟩ := quorum_of_enters hr h hl hb
  obtain ⟨q, hq, hq'⟩ := exists_mem_of_majorities hnd hnd' hsub hsub' hmaj hmaj'
  have hva := hcast q hq
  have hvb := hcast' q hq'
  by_contra hne
  by_cases hqb : q = b
  · -- The common voter is the new leader, which as a candidate has voted for itself only.
    subst hqb
    have hself := hI.active q (hsub hq) (.inl hst)
    rcases hI.present _ hva hterm.symm with hvf | ⟨-, hfol⟩
    · exact hne (hvf.symm.trans hself)
    · simp [hst] at hfol
  · -- Otherwise it is the old leader, which voted for another candidate after a third one led.
    rcases hI.pair q T a b hva hvb with hab | haq | hbq
    · exact hne hab
    · subst haq
      obtain ⟨m', hm', hent'⟩ := hI.turned a T b hvb (fun heq => hne heq.symm) ha
      exact hm' (hI.unique m' a T hent' ha)
    · exact hqb hbq.symm

include hI hr h hl in
theorem step_unique (a b T : Int32) (ha : Entered (⟨s, e, s'⟩ :: tr) a T)
    (hb : Entered (⟨s, e, s'⟩ :: tr) b T) : a = b := by
  rcases entered_cons.1 ha with ha | ha <;> rcases entered_cons.1 hb with hb | hb
  · obtain ⟨_, _, _, _, hea, -⟩ := ha.effect h
    obtain ⟨_, _, _, _, heb, -⟩ := hb.effect h
    exact (Call.requestVoteReply.inj (Event.deliver.inj (hea.symm.trans heb))).1
  · exact (step_unique_old hI hr h hl hb ha).symm
  · exact step_unique_old hI hr h hl ha hb
  · exact hI.unique a b T ha hb

include hI hr h hl in
/-- **A step without a late reply keeps the invariant.** -/
theorem step : SafeInv R (⟨s, e, s'⟩ :: tr) s' where
  le v hv := by
    rcases cast_cons.1 hv with hv | hv
    · exact Int32.le_of_eq (voteOf_spec (wellFormed_of_run hr) h hv).2.1
    · exact Int32.le_trans (hI.le v hv) (mono h hl v.voter)
  active := step_active hI hr h
  present v hv hterm := by
    rcases cast_cons.1 hv with hv | hv
    · exact .inl (voteOf_spec (wellFormed_of_run hr) h hv).2.2
    · exact step_present_old hI hr h hl v hv hterm
  pair := step_pair hI hr h hl
  led := step_led hI h
  heart := step_heart hI hr h
  quorum m T hent := by
    rcases entered_cons.1 hent with hent | hent
    · exact (quorum_of_enters hr h hl hent).1.cons _
    · exact (hI.quorum m T hent).cons _
  still := step_still hI hr h hl
  turned := step_turned hI hr h hl
  unique := step_unique hI hr h hl

end SafeInv

/-! ## Election safety -/

theorem safeInv_init (hn : 2 ≤ R.ids.length) (h : (protocol R).init s) : SafeInv R [] s := by
  obtain ⟨hflight, hmodules⟩ := h
  have hfollower : ∀ m ∈ R.ids, (s.modules m).state = .follower := by
    intro m hm
    obtain ⟨p, hp, hmod⟩ := hmodules m hm
    have hlen := hp.length_eq
    rw [List.length_erase_of_mem hm] at hlen
    have hpos : p.length ≠ 0 := by omega
    simp [hmod, newConsensusModule, List.length_eq_zero_iff.not.1 hpos]
  refine ⟨by simp, fun m hm hst => ?_, by simp, by simp, fun m hm hst => ?_, by simp [hflight],
    by simp, by simp, by simp, by simp⟩
  · simp [hfollower m hm] at hst
  · simp [hfollower m hm] at hst

theorem safeInv_of_run (hn : 2 ≤ R.ids.length) (h : (protocol R).Run tr s)
    (hl : ∀ t ∈ tr, ¬ LateReply t.src t.event) : SafeInv R tr s :=
  h.invariant (G := fun t => ¬ LateReply t.src t.event) (fun _ h₀ => safeInv_init hn h₀)
    (fun _ _ _ _ hr hI hl hn => hI.step hr hn hl) hl

/-- **Election safety.** In a run without a late reply, at most one replica ever enters the
leadership of a term, and no two replicas lead the same term. -/
theorem election_safety (h : (protocol R).Run tr s)
    (hl : ∀ t ∈ tr, ¬ LateReply t.src t.event) :
    (∀ a ∈ R.ids, ∀ b ∈ R.ids, ∀ T, Entered tr a T → Entered tr b T → a = b) ∧
      ∀ a ∈ R.ids, ∀ b ∈ R.ids, (s.modules a).state = .leader → (s.modules b).state = .leader →
        (s.modules a).currentTerm = (s.modules b).currentTerm → a = b := by
  by_cases hn : 2 ≤ R.ids.length
  · have hI := safeInv_of_run hn h hl
    refine ⟨fun a _ b _ T => hI.unique a b T, fun a ha b hb hsa hsb hterm => ?_⟩
    have hent := hI.led a ha hsa
    rw [hterm] at hent
    exact hI.unique a b _ hent (hI.led b hb hsb)
  · -- A single replica agrees with itself.
    have hone : ∀ a ∈ R.ids, ∀ b ∈ R.ids, a = b := by
      match R.ids, hn with
      | [], _ => simp
      | [x], _ => simp
      | _ :: _ :: _, hn => simp at hn
    exact ⟨fun a ha b hb _ _ _ => hone a ha b hb, fun a ha b hb _ _ _ => hone a ha b hb⟩

/-- In a quiet election replica 1 enters term 1, and nobody else does. -/
theorem election_safety_quietElection :
    ∃ tr s, (protocol threeReplicas).Run tr s ∧ Entered tr 1 1 ∧
      ∀ b ∈ threeReplicas.ids, Entered tr b 1 → 1 = b := by
  obtain ⟨tr, s, hrun, hl, hent⟩ := Machine.exists_run_of_play quietElection
    (P := fun tr _ => (∀ t ∈ tr, ¬ LateReply t.src t.event) ∧ Entered tr 1 1)
    threeFresh_init (by decide +kernel)
  exact ⟨tr, s, hrun, hent, fun b hb =>
    (election_safety hrun hl).1 1 (by decide) b hb 1 hent⟩

/-- Replica 2 grants replica 1 its vote of term 1, but the reply is late: replica 1 has already
started its election of term 2, which replica 3 wins. The late grant then makes replica 1 a leader
of term 2 as well. -/
def lateGrant : List Event :=
  timeout 1 ++ [.deliver (.requestVote 1 0 2 ⟨1, 1⟩)] ++ timeout 1 ++ timeout 3 ++ timeout 3 ++
    [.deliver (.requestVote 3 1 2 ⟨2, 3⟩), .deliver (.requestVoteReply 3 1 2 ⟨2, true⟩),
      .deliver (.requestVoteReply 1 0 2 ⟨1, true⟩)]

theorem not_election_safety : ¬ ∀ (R : Replicas) (tr : List (Machine.Step Cluster Event))
    (s : Cluster), (protocol R).Run tr s →
      ∀ a ∈ R.ids, ∀ b ∈ R.ids, ∀ T, Entered tr a T → Entered tr b T → a = b := by
  intro hall
  obtain ⟨tr, s, hrun, hone, hthree⟩ := Machine.exists_run_of_play lateGrant
    (P := fun tr _ => Entered tr 1 2 ∧ Entered tr 3 2) threeFresh_init (by decide +kernel)
  exact absurd (hall _ tr s hrun 1 (by decide) 3 (by decide) 2 hone hthree) (by decide)

end Dirigent.LeaderElection
