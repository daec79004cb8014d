import Dirigent.LeaderElection.Terms

/-!
# One vote per term

A module votes in a term at most once as long as it remembers the vote. `becomeFollower` forgets
it, and three of its four callers can reach it without raising the term. This file shows that
nothing else can go wrong: in a run in which no vote is forgotten in its own term
(`VoteForgotten`), every module gives at most one vote per term.

The invariant (`VoteInv`) ties each vote of the past to the voter's present: the voter's term has
reached the vote's term, and while it is still there, `votedFor` still names the candidate.
-/

namespace Dirigent.LeaderElection

open Cluster

variable {R : Replicas} {s s' : Cluster} {e : Event} {tr : List (Machine.Step Cluster Event)}

/-- The vote `v` was given in one of the steps. -/
def Cast (tr : List (Machine.Step Cluster Event)) (v : Vote) : Prop :=
  ∃ t ∈ tr, voteOf t.src t.event = some v

@[simp] theorem not_cast_nil (v : Vote) : ¬ Cast [] v := by simp [Cast]

theorem cast_cons {v : Vote} :
    Cast (⟨s, e, s'⟩ :: tr) v ↔ voteOf s e = some v ∨ Cast tr v := by simp [Cast]

/-- The steps in which the source forgets a vote although the term does not rise: a candidate or
leader hears a heartbeat of its own term, or a late reply puts the module into a term that is not
ahead. -/
def VoteForgotten (s : Cluster) : Event → Prop
  | .timerTick m k elapsed =>
    voteOf s (.timerTick m k elapsed) ≠ none ∧ (s.modules m).currentTerm = Int32.maxValue
  | .deliver (.appendEntries _ dst args) =>
    args.term = (s.modules dst).currentTerm ∧
      ((s.modules dst).state = .candidate ∨ (s.modules dst).state = .leader)
  | .deliver (.requestVoteReply src k _ reply) =>
    (s.modules src).state = .candidate ∧ reply.term ≤ (s.modules src).currentTerm ∧
      ∃ el ∈ (s.modules src).elections[k]?, el.savedCurrentTerm < reply.term
  | .deliver (.appendEntriesReply src _ saved reply) =>
    saved < reply.term ∧ (reply.term < (s.modules src).currentTerm ∨
      reply.term = (s.modules src).currentTerm ∧ (s.modules src).votedFor ≠ nobody)
  | _ => False

instance (s : Cluster) : (e : Event) → Decidable (VoteForgotten s e)
  | .timerStart .. | .sendHeartbeats .. | .lose .. => inferInstanceAs (Decidable False)
  | .timerTick .. => inferInstanceAs (Decidable (_ ∧ _))
  | .deliver (.requestVote ..) => inferInstanceAs (Decidable False)
  | .deliver (.appendEntries ..) => inferInstanceAs (Decidable (_ ∧ _))
  | .deliver (.requestVoteReply ..) => inferInstanceAs (Decidable (_ ∧ _))
  | .deliver (.appendEntriesReply ..) => inferInstanceAs (Decidable (_ ∧ _))

theorem not_termGoesBack (h : ¬ VoteForgotten s e) : ¬ TermGoesBack s e := by
  intro hb
  unfold TermGoesBack at hb
  split at hb
  · exact h hb
  · obtain ⟨hst, hlt, el, hel, hsaved⟩ := hb
    exact h ⟨hst, by grind, el, hel, hsaved⟩
  · exact h ⟨hb.1, .inl hb.2⟩
  · exact hb

/-- A step that forgets no vote and makes `m` a follower raises its term, or `m` had not voted. -/
theorem Why.lt_or_nobody {m T : Int32} (why : Why s e m T) (h : ¬ VoteForgotten s e) :
    (s.modules m).currentTerm < T ∨
      T = (s.modules m).currentTerm ∧ (s.modules m).votedFor = nobody := by
  cases why with
  | ahead hlt => exact .inl hlt
  | heartbeat src args he hT heq hst =>
    subst he hT
    exact absurd ⟨heq, hst⟩ h
  | voteReply k dst reply el he hel hT hlt hst =>
    subst he hT
    left
    by_contra hle
    exact h ⟨hst, by grind, el, hel, hlt⟩
  | heartbeatReply dst saved reply he hT hlt =>
    subst he hT
    by_contra hno
    rw [not_or, not_and] at hno
    refine h ⟨hlt, ?_⟩
    by_cases heq : reply.term = (s.modules m).currentTerm
    · exact .inr ⟨heq, hno.2 heq⟩
    · exact .inl (by grind)

/-! ## The invariant -/

/-- A vote of the past is backed by the voter's present state. -/
structure Backed (s : Cluster) (v : Vote) : Prop where
  le : v.term ≤ (s.modules v.voter).currentTerm
  votedFor : v.term = (s.modules v.voter).currentTerm →
    (s.modules v.voter).votedFor = v.candidate

/-- A vote goes from a replica to a replica, and is the voter's afterwards. -/
theorem voteOf_spec (hw : WellFormed R s) (h : step R s e = some s') {v : Vote}
    (hv : voteOf s e = some v) :
    (v.voter ∈ R.ids ∧ v.candidate ∈ R.ids) ∧ v.term = (s'.modules v.voter).currentTerm ∧
      (s'.modules v.voter).votedFor = v.candidate := by
  obtain ⟨m, -, heff⟩ := step_effect h
  cases heff with
  | keep _ _ _ hvote | follow _ _ _ hvote | win _ _ _ _ _ _ _ _ _ _ _ _ _ hvote =>
    simp [hvote] at hv
  | grant src k args he hvote hvf =>
    subst he
    obtain ⟨hc, -⟩ := step_deliver h
    obtain rfl := Option.some.inj (hvote.symm.trans hv)
    have hnamed : args.candidateID = src := hw.named _ hc
    obtain ⟨hsrc, hdst⟩ := hw.calls _ hc
    exact ⟨⟨List.mem_of_mem_erase hdst, hnamed ▸ hsrc⟩, rfl, hvf⟩
  | campaign k elapsed he hs ht hvf hvote =>
    subst he
    have hm := (Option.ite_none_right_eq_some.1 h).1
    obtain rfl := Option.some.inj (hvote.symm.trans hv)
    exact ⟨⟨hm, hm⟩, ht.symm, by rw [hvf, hw.id m hm]⟩

theorem cast_mem (h : (protocol R).Run tr s) {v : Vote} (hv : Cast tr v) :
    v.voter ∈ R.ids ∧ v.candidate ∈ R.ids := by
  obtain ⟨t, ht, hv⟩ := hv
  obtain ⟨tr', -, hrun⟩ := h.src ht
  exact (voteOf_spec (wellFormed_of_run hrun) (h.next_of_mem ht) hv).1

theorem candidate_ne_nobody {c : Int32} (h : c ∈ R.ids) : c ≠ nobody := fun hc =>
  R.nobody_notMem (hc ▸ h)

/-- **A step that forgets no vote keeps every earlier vote backed.** -/
theorem Backed.step {v : Vote} (hb : Backed s v) (hc : v.candidate ≠ nobody)
    (h : step R s e = some s') (hf : ¬ VoteForgotten s e) : Backed s' v := by
  have hmono := term_le_of_step h (not_termGoesBack hf) v.voter
  refine ⟨Int32.le_trans hb.le hmono, fun heq => ?_⟩
  have hcur : v.term = (s.modules v.voter).currentTerm := by
    have := hb.le
    grind
  have hvf := hb.votedFor hcur
  obtain ⟨m, hframe, heff⟩ := step_effect h
  by_cases hx : v.voter = m
  · rw [hx] at hcur heq hvf ⊢
    cases heff with
    | keep _ _ hv _ | win _ _ _ _ _ _ _ _ _ _ _ _ hv _ => rw [hv, hvf]
    | follow _ _ why _ =>
      rcases why.lt_or_nobody hf with hlt | ⟨-, hno⟩
      · grind
      · exact absurd (hvf.symm.trans hno) hc
    | grant src k args he hvote hv hcase =>
      rcases hcase with ⟨hlt, -⟩ | ⟨-, -, hno | hsame⟩
      · grind
      · exact absurd (hvf.symm.trans hno) hc
      · rw [hv, ← hsame, hvf]
    | campaign k elapsed he _ ht _ hvote =>
      subst he
      grind
  · rw [hframe _ hx, hvf]

theorem backed_of_voteOf (hw : WellFormed R s) (h : step R s e = some s') {v : Vote}
    (hv : voteOf s e = some v) : Backed s' v := by
  obtain ⟨-, ht, hvf⟩ := voteOf_spec hw h hv
  exact ⟨Int32.le_of_eq ht, fun _ => hvf⟩

/-- A module whose earlier vote of the term is still backed can only repeat it. -/
theorem candidate_eq_of_backed {v v' : Vote} (hw : WellFormed R s) (h : step R s e = some s')
    (hf : ¬ VoteForgotten s e) (hb : Backed s v) (hc : v.candidate ≠ nobody)
    (hv' : voteOf s e = some v') (hvoter : v.voter = v'.voter) (hterm : v.term = v'.term) :
    v.candidate = v'.candidate := by
  obtain ⟨-, ht, hvf⟩ := voteOf_spec hw h hv'
  have hcur : v.term = (s'.modules v.voter).currentTerm := by rw [hvoter, hterm, ht]
  have hold := (hb.step hc h hf).votedFor hcur
  rw [← hold, hvoter, hvf]

/-- All votes of the past are backed, and no two of them disagree. -/
structure VoteInv (tr : List (Machine.Step Cluster Event)) (s : Cluster) : Prop where
  backed : ∀ v, Cast tr v → Backed s v
  unique : ∀ v v', Cast tr v → Cast tr v' → v.voter = v'.voter → v.term = v'.term →
    v.candidate = v'.candidate

theorem VoteInv.step (hI : VoteInv tr s) (hr : (protocol R).Run tr s)
    (h : step R s e = some s') (hf : ¬ VoteForgotten s e) : VoteInv (⟨s, e, s'⟩ :: tr) s' := by
  have hw := wellFormed_of_run hr
  have hne : ∀ v, Cast tr v → v.candidate ≠ nobody := fun v hv =>
    candidate_ne_nobody (cast_mem hr hv).2
  refine ⟨fun v hv => ?_, fun v v' hv hv' hvoter hterm => ?_⟩
  · rcases cast_cons.1 hv with hv | hv
    · exact backed_of_voteOf hw h hv
    · exact (hI.backed v hv).step (hne v hv) h hf
  · rcases cast_cons.1 hv with hv | hv <;> rcases cast_cons.1 hv' with hv' | hv'
    · obtain rfl := Option.some.inj (hv.symm.trans hv')
      rfl
    · exact (candidate_eq_of_backed hw h hf (hI.backed v' hv') (hne v' hv') hv hvoter.symm
        hterm.symm).symm
    · exact candidate_eq_of_backed hw h hf (hI.backed v hv) (hne v hv) hv' hvoter hterm
    · exact hI.unique v v' hv hv' hvoter hterm

/-- **One vote per term.** In a run that forgets no vote in its own term, a module gives its vote
of a term to at most one candidate, its own candidacy included. -/
theorem one_vote_per_term (h : (protocol R).Run tr s)
    (hf : ∀ t ∈ tr, ¬ VoteForgotten t.src t.event) {v v' : Vote} (hv : Cast tr v)
    (hv' : Cast tr v') (hvoter : v.voter = v'.voter) (hterm : v.term = v'.term) :
    v.candidate = v'.candidate := by
  have hI : VoteInv tr s := h.invariant (G := fun t => ¬ VoteForgotten t.src t.event)
    (fun s _ => ⟨by simp, by simp⟩) (fun tr s e s' hr hI hf hn => hI.step hr hn hf) hf
  exact hI.unique v v' hv hv' hvoter hterm

instance (tr : List (Machine.Step Cluster Event)) (v : Vote) : Decidable (Cast tr v) :=
  inferInstanceAs (Decidable (∃ t ∈ tr, _))

/-- Replica 1 wins term 1 with the vote of replica 2, and replica 3 hears of it. -/
def quietElection : List Event :=
  timeout 1 ++ [.deliver (.requestVote 1 0 2 ⟨1, 1⟩), .deliver (.requestVoteReply 1 0 2 ⟨1, true⟩),
    .sendHeartbeats 1, .deliver (.appendEntries 1 3 ⟨1, 1⟩), .deliver (.requestVote 1 0 3 ⟨1, 1⟩)]

theorem one_vote_per_term_quietElection :
    ∃ tr s, (protocol threeReplicas).Run tr s ∧ Cast tr ⟨3, 1, 1⟩ ∧
      ∀ v, Cast tr v → v.voter = 3 → v.term = 1 → v.candidate = 1 := by
  obtain ⟨tr, s, hrun, hf, hc⟩ := Machine.exists_run_of_play quietElection
    (P := fun tr _ => (∀ t ∈ tr, ¬ VoteForgotten t.src t.event) ∧ Cast tr ⟨3, 1, 1⟩)
    threeFresh_init (by decide +kernel)
  exact ⟨tr, s, hrun, hc, fun v hv hvoter hterm => one_vote_per_term hrun hf hv hc hvoter hterm⟩

/-- Replicas 1 and 2 campaign in term 1, and replica 2 wins. Its heartbeat makes replica 1 forget
its own vote, so that it also votes for replica 2 in term 1. -/
def forgottenVote : List Event :=
  timeout 1 ++ timeout 2 ++ [.deliver (.requestVote 2 0 3 ⟨1, 2⟩),
    .deliver (.requestVoteReply 2 0 3 ⟨1, true⟩), .sendHeartbeats 2,
    .deliver (.appendEntries 2 1 ⟨1, 2⟩), .deliver (.requestVote 2 0 1 ⟨1, 2⟩)]

theorem not_one_vote_per_term : ¬ ∀ (R : Replicas) (tr : List (Machine.Step Cluster Event))
    (s : Cluster), (protocol R).Run tr s → ∀ v v', Cast tr v → Cast tr v' →
      v.voter = v'.voter → v.term = v'.term → v.candidate = v'.candidate := by
  intro hall
  obtain ⟨tr, s, hrun, hself, hother⟩ := Machine.exists_run_of_play forgottenVote
    (P := fun tr _ => Cast tr ⟨1, 1, 1⟩ ∧ Cast tr ⟨1, 1, 2⟩) threeFresh_init (by decide +kernel)
  exact absurd (hall _ tr s hrun _ _ hself hother rfl rfl) (by decide)

end Dirigent.LeaderElection
