import Dirigent.LeaderElection.Steps

/-!
# Terms

`becomeFollower` overwrites the term, and two of its callers compare a late reply with the term
that was current when the request was sent. So the term of a module can go back. This file says
exactly when: the term never decreases in a run if and only if no step of the run is stale
(`TermGoesBack`).

* `term_le_of_step` / `term_lt_of_step` — one step, both ways.
* `term_monotone_iff` — the same for whole runs.

The calls in flight are between replicas that exist (`WellFormed`), so a stale reply always hits
a replica.
-/

namespace Dirigent.LeaderElection

open Cluster ConsensusModule

/-! ## Calls are between replicas -/

namespace Call

/-- The replica whose goroutine made the call. -/
def src : Call → Int32
  | .requestVote src .. | .requestVoteReply src .. => src
  | .appendEntries src .. | .appendEntriesReply src .. => src

/-- The replica the call is made to. -/
def dst : Call → Int32
  | .requestVote _ _ dst _ | .requestVoteReply _ _ dst _ => dst
  | .appendEntries _ dst _ | .appendEntriesReply _ dst _ _ => dst

/-- A request names its caller as the candidate or the leader. -/
def Named : Call → Prop
  | .requestVote src _ _ args => args.candidateID = src
  | .appendEntries src _ args => args.leaderID = src
  | _ => True

end Call

variable {R : Replicas} {s s' : Cluster} {e : Event}

/-- The ids and peers of the modules are what they were at the start, and every call in flight is
from one replica to another. -/
structure WellFormed (R : Replicas) (s : Cluster) : Prop where
  id : ∀ m ∈ R.ids, (s.modules m).id = m
  peers : ∀ m ∈ R.ids, (s.modules m).peerIds.Perm (R.ids.erase m)
  calls : ∀ c ∈ s.inFlight, c.src ∈ R.ids ∧ c.dst ∈ R.ids.erase c.src
  named : ∀ c ∈ s.inFlight, c.Named

theorem step_static (h : step R s e = some s') (x : Int32) :
    (s'.modules x).id = (s.modules x).id ∧ (s'.modules x).peerIds = (s.modules x).peerIds := by
  refine forall_modules_of_step h
    (P := fun x cm => cm.id = (s.modules x).id ∧ cm.peerIds = (s.modules x).peerIds)
    (fun x => ⟨rfl, rfl⟩) (fun m cm' sent hruns => ?_) x
  cases hruns with
  | requestVote => exact ⟨(requestVote_static _).1, (requestVote_static _).2.1⟩
  | voteReply hel => exact handleVoteReply_static _ _ _
  | appendEntries =>
    obtain ⟨_, rfl, hid, hp, -⟩ := (s.modules m).appendEntries_cases _
    exact ⟨hid, hp⟩
  | heartbeatReply =>
    exact ⟨(handleHeartbeatReply_static _ _).1, (handleHeartbeatReply_static _ _).2.1⟩
  | _ => exact ⟨rfl, rfl⟩

/-- A call in flight after a step has the caller and the peer of one in flight before it, or is a
new call of a replica to a peer. -/
theorem step_calls (h : step R s e = some s') {c : Call} (hin : c ∈ s'.inFlight) :
    c ∈ s.inFlight ∨ c.Named ∧
      ((∃ c' ∈ s.inFlight, c'.src = c.src ∧ c'.dst = c.dst) ∨
        ∃ m ∈ R.ids, c.src = (s.modules m).id ∧ c.dst ∈ (s.modules m).peerIds) := by
  obtain ⟨m, cm', sent, hruns, rfl, htaken, hm⟩ := step_runs h
  refine (List.mem_append.1 hin).imp (fun hc => List.diff_subset _ _ hc) fun hc => ?_
  clear h
  cases hruns with
  | startElection | sendHeartbeats =>
    obtain ⟨p, hp, rfl⟩ := List.mem_map.1 hc
    exact ⟨rfl, .inr ⟨m, hm rfl, rfl, hp⟩⟩
  | requestVote | appendEntries =>
    obtain ⟨reply, -, rfl⟩ := List.mem_map.1 hc
    exact ⟨trivial, .inl ⟨_, htaken List.mem_cons_self, rfl, rfl⟩⟩
  | _ => cases hc

theorem WellFormed.step (hw : WellFormed R s) (h : step R s e = some s') : WellFormed R s' := by
  refine ⟨fun m hm => ?_, fun m hm => ?_, fun c hc => ?_, fun c hc => ?_⟩
  · rw [(step_static h m).1, hw.id m hm]
  · rw [(step_static h m).2]
    exact hw.peers m hm
  · rcases step_calls h hc with hc | ⟨-, ⟨c', hc', hs, hd⟩ | ⟨m, hm, hs, hd⟩⟩
    · exact hw.calls c hc
    · rw [← hs, ← hd]
      exact hw.calls c' hc'
    · rw [hs, hw.id m hm]
      exact ⟨hm, (hw.peers m hm).mem_iff.1 hd⟩
  · rcases step_calls h hc with hc | ⟨hn, -⟩
    · exact hw.named c hc
    · exact hn

/-- A heartbeat in flight after a step was so before, or a leader has just sent it, in its
term. -/
theorem step_heartbeat (hw : WellFormed R s) (h : step R s e = some s') {src dst : Int32}
    {args : AppendEntriesArgs} (hin : .appendEntries src dst args ∈ s'.inFlight) :
    .appendEntries src dst args ∈ s.inFlight ∨ s'.modules = s.modules ∧ src ∈ R.ids ∧
      (s.modules src).state = .leader ∧ args.term = (s.modules src).currentTerm := by
  obtain ⟨m, cm', sent, hruns, rfl, -, hm⟩ := step_runs h
  refine (List.mem_append.1 hin).imp (fun hc => List.diff_subset _ _ hc) fun hc => ?_
  clear h
  cases hruns with
  | sendHeartbeats hst =>
    obtain ⟨p, -, heq⟩ := List.mem_map.1 hc
    cases heq
    rw [hw.id m (hm rfl)]
    exact ⟨Function.update_eq_self .., hm rfl, hst, rfl⟩
  | _ => simp [voteRequests] at hc

theorem wellFormed_of_run {tr : List (Machine.Step Cluster Event)}
    (h : (protocol R).Run tr s) : WellFormed R s := by
  refine h.invariant_state (fun s ⟨h₀, hm⟩ => ⟨fun m hm' => ?_, fun m hm' => ?_, ?_, ?_⟩)
    fun s e s' hw hn => hw.step hn
  · obtain ⟨p, -, hp⟩ := hm m hm'
    rw [hp]; rfl
  · obtain ⟨p, hperm, hp⟩ := hm m hm'
    rw [hp]; exact hperm
  · simp [h₀]
  · simp [h₀]

/-! ## When a term goes back -/

/-- The steps in which the source puts a term back: a vote reply or a heartbeat reply that is
ahead of the term saved with its request but behind the current one, and an election at the
largest `int32`. -/
def TermGoesBack (s : Cluster) : Event → Prop
  | .timerTick m k elapsed =>
    voteOf s (.timerTick m k elapsed) ≠ none ∧ (s.modules m).currentTerm = Int32.maxValue
  | .deliver (.requestVoteReply src k _ reply) =>
    (s.modules src).state = .candidate ∧ reply.term < (s.modules src).currentTerm ∧
      ∃ el ∈ (s.modules src).elections[k]?, el.savedCurrentTerm < reply.term
  | .deliver (.appendEntriesReply src _ saved reply) =>
    saved < reply.term ∧ reply.term < (s.modules src).currentTerm
  | _ => False

theorem le_add_one {t : Int32} (h : t ≠ Int32.maxValue) : t ≤ t + 1 := by grind

theorem add_one_lt {t : Int32} (h : t = Int32.maxValue) : t + 1 < t := by subst h; decide

theorem Why.le {m T : Int32} (why : Why s e m T) (h : ¬ TermGoesBack s e) :
    (s.modules m).currentTerm ≤ T := by
  cases why with
  | ahead hlt | heartbeat src args he hT heq hst => grind
  | voteReply k dst reply el he hel hT hlt hst =>
    subst he hT
    by_contra hle
    exact h ⟨hst, by grind, el, hel, hlt⟩
  | heartbeatReply dst saved reply he hT hlt =>
    subst he hT
    by_contra hle
    exact h ⟨hlt, by grind⟩

/-- **A step that is not stale lowers no term.** -/
theorem term_le_of_step (h : step R s e = some s') (hb : ¬ TermGoesBack s e) (x : Int32) :
    (s.modules x).currentTerm ≤ (s'.modules x).currentTerm := by
  obtain ⟨m, hframe, heff⟩ := step_effect h
  by_cases hx : x = m
  · subst hx
    cases heff with
    | keep hs ht hv hvote | win k dst reply el he hel hst hT hg hq hs ht hv hvote =>
      exact Int32.le_of_eq ht.symm
    | follow hs hv why hvote => exact why.le hb
    | grant src k args he hvote hv hcur => grind
    | campaign k elapsed he hs ht hv hvote =>
      rw [ht]
      refine le_add_one fun hmax => hb ?_
      subst he
      exact ⟨by simp [hvote], hmax⟩
  · rw [hframe x hx]
    exact Int32.le_refl _

/-- **A stale step lowers the term of a replica.** -/
theorem term_lt_of_step (hw : WellFormed R s) (h : step R s e = some s')
    (hb : TermGoesBack s e) :
    ∃ m ∈ R.ids, (s'.modules m).currentTerm < (s.modules m).currentTerm := by
  unfold TermGoesBack at hb
  split at hb
  · rename_i m k elapsed
    obtain ⟨_, _, _, hruns, rfl, -, hm⟩ := step_runs h
    cases hruns with
    | bailOut hk ha | keepWaiting hk ha => exact absurd (by simp [voteOf, hk, ha]) hb.1
    | startElection => exact ⟨m, hm rfl, by simpa using add_one_lt hb.2⟩
  · rename_i src k dst reply
    obtain ⟨hst, hlt, el, hel, hsaved⟩ := hb
    rw [Option.mem_def] at hel
    obtain ⟨hc, rfl⟩ := step_deliver h
    refine ⟨src, (hw.calls _ hc).1, ?_⟩
    simpa [receive, hel, ConsensusModule.handleVoteReply, hst, hsaved] using hlt
  · rename_i src dst saved reply
    obtain ⟨hc, rfl⟩ := step_deliver h
    refine ⟨src, (hw.calls _ hc).1, ?_⟩
    simpa [receive, ConsensusModule.handleHeartbeatReply, hb.1] using hb.2
  · exact hb.elim

/-- **Terms grow exactly in the runs without a stale step.** -/
theorem term_monotone_iff {tr : List (Machine.Step Cluster Event)}
    (h : (protocol R).Run tr s) :
    (∀ t ∈ tr, ∀ m ∈ R.ids, (t.src.modules m).currentTerm ≤ (t.dst.modules m).currentTerm) ↔
      ∀ t ∈ tr, ¬ TermGoesBack t.src t.event := by
  refine forall₂_congr fun t ht => ⟨fun hle hb => ?_, fun hb m _ => ?_⟩
  · obtain ⟨tr', -, hrun⟩ := h.src ht
    obtain ⟨m, hm, hlt⟩ := term_lt_of_step (wellFormed_of_run hrun) (h.next_of_mem ht) hb
    exact absurd (hle m hm) (by grind)
  · exact term_le_of_step (h.next_of_mem ht) hb m

/-- Replica 1 asks replica 2, which is two terms further, for its vote in term 1; the refusal
arrives when replica 1 has already reached term 3, and puts it back to term 2. -/
def lateRefusal : List Event :=
  timeout 1 ++ timeout 2 ++ timeout 2 ++ [.deliver (.requestVote 1 0 2 ⟨1, 1⟩)] ++ timeout 1 ++
    timeout 1 ++ [.deliver (.requestVoteReply 1 0 2 ⟨2, false⟩)]

/-- In that run a step is stale, and its term does go back. -/
theorem term_monotone_iff_lateRefusal :
    ∃ tr s, (protocol threeReplicas).Run tr s ∧ tr.length = 12 ∧
      ((∀ t ∈ tr, ∀ m ∈ threeReplicas.ids,
          (t.src.modules m).currentTerm ≤ (t.dst.modules m).currentTerm) ↔
        ∀ t ∈ tr, ¬ TermGoesBack t.src t.event) := by
  obtain ⟨tr, s, hrun, hlen⟩ := Machine.exists_run_of_play lateRefusal
    (P := fun tr _ => tr.length = 12) threeFresh_init (by decide +kernel)
  exact ⟨tr, s, hrun, hlen, term_monotone_iff hrun⟩

theorem not_term_monotone : ¬ ∀ (R : Replicas) (tr : List (Machine.Step Cluster Event))
    (s : Cluster), (protocol R).Run tr s → ∀ t ∈ tr, ∀ m ∈ R.ids,
      (t.src.modules m).currentTerm ≤ (t.dst.modules m).currentTerm := by
  intro hall
  obtain ⟨tr, s, hrun, t, ht, m, hm, hlt⟩ := Machine.exists_run_of_play lateRefusal
    (P := fun tr _ => ∃ t ∈ tr, ∃ m ∈ threeReplicas.ids,
      ¬ (t.src.modules m).currentTerm ≤ (t.dst.modules m).currentTerm)
    threeFresh_init (by decide +kernel)
  exact hlt (hall _ tr s hrun t ht m hm)

end Dirigent.LeaderElection
