import Dirigent.LeaderElection.Cluster

/-!
# What one step can do

Every event runs on one module. As far as terms, states and votes go, it does one of five
things (`Effect`): nothing, fall back to follower, grant a vote, campaign, or win. `step_effect`
says which, with the guards under which the source does it; the proofs about runs only look at
the five cases.

A module falls back to follower for four reasons (`Why`). Only the first is sure to raise the
term.
-/

namespace Dirigent.LeaderElection

/-! ## The functions of a module, field by field -/

namespace ConsensusModule

variable {cm : ConsensusModule}

theorem catchUp_of_lt {term : Int32} (h : cm.currentTerm < term) :
    cm.catchUp term = cm.becomeFollower term := if_pos h

theorem catchUp_of_le {term : Int32} (h : term ≤ cm.currentTerm) : cm.catchUp term = cm :=
  if_neg (by grind)

@[simp] theorem catchUp_id {term : Int32} : (cm.catchUp term).id = cm.id := by
  unfold catchUp; split <;> rfl

@[simp] theorem catchUp_peerIds {term : Int32} : (cm.catchUp term).peerIds = cm.peerIds := by
  unfold catchUp; split <;> rfl

@[simp] theorem catchUp_elections {term : Int32} :
    (cm.catchUp term).elections = cm.elections := by
  unfold catchUp; split <;> rfl

/-! ### The handlers -/

theorem requestVote_cases (args : RequestVoteArgs) :
    (∃ cm', cm.requestVote args = (cm', some ⟨args.term, true⟩) ∧
      cm' = { cm.catchUp args.term with votedFor := args.candidateID } ∧
      (cm.currentTerm < args.term ∨ cm.currentTerm = args.term ∧
        (cm.votedFor = nobody ∨ cm.votedFor = args.candidateID))) ∨
    (cm.requestVote args).1 = cm ∧ ∀ T, (cm.requestVote args).2 ≠ some ⟨T, true⟩ := by
  unfold requestVote
  by_cases hd : cm.state = .dead
  · simp [hd]
  rw [if_neg hd]
  by_cases hlt : cm.currentTerm < args.term
  · left
    simp [catchUp_of_lt hlt, hlt]
  · have hle : args.term ≤ cm.currentTerm := by grind
    simp only [catchUp_of_le hle]
    by_cases hg : cm.currentTerm = args.term ∧
        (cm.votedFor = nobody ∨ cm.votedFor = args.candidateID)
    · left
      simp [hg]
    · right
      simp [hg]

theorem appendEntries_cases (args : AppendEntriesArgs) :
    (∃ cm', cm' = (cm.appendEntries args).1 ∧ cm'.id = cm.id ∧ cm'.peerIds = cm.peerIds ∧
      cm'.elections = cm.elections ∧
      ((cm'.state = cm.state ∧ cm'.currentTerm = cm.currentTerm ∧ cm'.votedFor = cm.votedFor) ∨
      (cm'.state = .follower ∧ cm'.currentTerm = args.term ∧ cm'.votedFor = nobody ∧
        (cm.currentTerm < args.term ∨ args.term = cm.currentTerm ∧
          (cm.state = .candidate ∨ cm.state = .leader))))) := by
  refine ⟨_, rfl, ?_⟩
  unfold appendEntries
  by_cases hd : cm.state = .dead
  · simp [hd]
  rw [if_neg hd]
  by_cases hlt : cm.currentTerm < args.term
  · simp [catchUp_of_lt hlt, hlt]
  · have hle : args.term ≤ cm.currentTerm := by grind
    simp only [catchUp_of_le hle]
    by_cases he : args.term = cm.currentTerm
    · cases hs : cm.state <;> simp_all
    · simp [he]

theorem requestVote_static (args : RequestVoteArgs) :
    (cm.requestVote args).1.id = cm.id ∧ (cm.requestVote args).1.peerIds = cm.peerIds ∧
      (cm.requestVote args).1.elections = cm.elections := by
  rcases cm.requestVote_cases args with ⟨cm', hrv, rfl, -⟩ | ⟨hcm, -⟩
  · rw [hrv]
    simp
  · rw [hcm]
    simp

theorem handleVoteReply_static (k : Nat) (el : Election) (reply : RequestVoteReply) :
    (cm.handleVoteReply k el reply).id = cm.id ∧
      (cm.handleVoteReply k el reply).peerIds = cm.peerIds := by
  unfold handleVoteReply
  split_ifs <;> simp

theorem handleVoteReply_elections (k : Nat) (el : Election) (reply : RequestVoteReply) :
    (cm.handleVoteReply k el reply).elections = cm.elections ∨
      reply.term = el.savedCurrentTerm ∧ reply.voteGranted = true ∧
        (cm.handleVoteReply k el reply).elections =
          cm.elections.set k { el with votesReceived := el.votesReceived + 1 } := by
  unfold handleVoteReply
  split_ifs <;> simp_all [startLeader, countVote]

theorem handleHeartbeatReply_static (saved : Int32) (reply : AppendEntriesReply) :
    (cm.handleHeartbeatReply saved reply).id = cm.id ∧
      (cm.handleHeartbeatReply saved reply).peerIds = cm.peerIds ∧
      (cm.handleHeartbeatReply saved reply).elections = cm.elections := by
  unfold handleHeartbeatReply
  split_ifs <;> simp

end ConsensusModule

/-! ## Votes -/

/-- A vote: who gave it, in which term, to whom. -/
structure Vote where
  voter : Int32
  term : Int32
  candidate : Int32
  deriving DecidableEq, Repr

/-- The vote given in a step: a `RequestVote` answered with a grant, or the candidate's own vote
when it starts an election. -/
def voteOf (s : Cluster) : Event → Option Vote
  | .deliver (.requestVote _ _ dst args) =>
    match ((s.modules dst).requestVote args).2 with
    | some ⟨T, true⟩ => some ⟨dst, T, args.candidateID⟩
    | _ => none
  | .timerTick m k elapsed =>
    match (s.modules m).electionTimers[k]? with
    | some (some termStarted) =>
      if (s.modules m).runElectionTimer termStarted elapsed = .startElection then
        some ⟨m, (s.modules m).currentTerm + 1, m⟩
      else none
    | _ => none
  | _ => none

/-! ## The five effects -/

/-- Why `m` falls back to follower of `T` in the step `e`. -/
inductive Why (s : Cluster) (e : Event) (m T : Int32) : Prop
  /-- The caller's term is ahead. -/
  | ahead (h : (s.modules m).currentTerm < T)
  /-- A candidate or leader hears a heartbeat of its own term. -/
  | heartbeat (src : Int32) (args : AppendEntriesArgs)
      (he : e = .deliver (.appendEntries src m args))
      (hT : args.term = T) (heq : T = (s.modules m).currentTerm)
      (hst : (s.modules m).state = .candidate ∨ (s.modules m).state = .leader)
  /-- A vote reply is ahead of the term its election started in. -/
  | voteReply (k : Nat) (dst : Int32) (reply : RequestVoteReply) (el : Election)
      (he : e = .deliver (.requestVoteReply m k dst reply))
      (hel : (s.modules m).elections[k]? = some el) (hT : reply.term = T)
      (hlt : el.savedCurrentTerm < T) (hst : (s.modules m).state = .candidate)
  /-- A heartbeat reply is ahead of the term the heartbeat was sent in. -/
  | heartbeatReply (dst saved : Int32) (reply : AppendEntriesReply)
      (he : e = .deliver (.appendEntriesReply m dst saved reply)) (hT : reply.term = T)
      (hlt : saved < T)

/-- What the step `e` does to the term, the state and the vote of `m`, which becomes `cm'`. -/
inductive Effect (s : Cluster) (e : Event) (m : Int32) (cm' : ConsensusModule) : Prop
  | keep (hs : cm'.state = (s.modules m).state)
      (ht : cm'.currentTerm = (s.modules m).currentTerm)
      (hv : cm'.votedFor = (s.modules m).votedFor) (hvote : voteOf s e = none)
  | follow (hs : cm'.state = .follower) (hv : cm'.votedFor = nobody)
      (why : Why s e m cm'.currentTerm) (hvote : voteOf s e = none)
  | grant (src : Int32) (k : Nat) (args : RequestVoteArgs)
      (he : e = .deliver (.requestVote src k m args))
      (hvote : voteOf s e = some ⟨m, cm'.currentTerm, args.candidateID⟩)
      (hv : cm'.votedFor = args.candidateID)
      (h : (s.modules m).currentTerm < cm'.currentTerm ∧ cm'.state = .follower ∨
        cm'.currentTerm = (s.modules m).currentTerm ∧ cm'.state = (s.modules m).state ∧
          ((s.modules m).votedFor = nobody ∨ (s.modules m).votedFor = args.candidateID))
  | campaign (k : Nat) (elapsed : Bool) (he : e = .timerTick m k elapsed)
      (hs : cm'.state = .candidate)
      (ht : cm'.currentTerm = (s.modules m).currentTerm + 1)
      (hv : cm'.votedFor = (s.modules m).id)
      (hvote : voteOf s e = some ⟨m, (s.modules m).currentTerm + 1, m⟩)
  | win (k : Nat) (dst : Int32) (reply : RequestVoteReply) (el : Election)
      (he : e = .deliver (.requestVoteReply m k dst reply))
      (hel : (s.modules m).elections[k]? = some el)
      (hst : (s.modules m).state = .candidate)
      (hT : reply.term = el.savedCurrentTerm) (hg : reply.voteGranted = true)
      (hq : (s.modules m).peerIds.length + 1 < (el.votesReceived + 1) * 2)
      (hs : cm'.state = .leader) (ht : cm'.currentTerm = (s.modules m).currentTerm)
      (hv : cm'.votedFor = (s.modules m).votedFor) (hvote : voteOf s e = none)

namespace Cluster

variable (s : Cluster) (m : Int32) (cm : ConsensusModule)

@[simp] theorem setModule_modules_self : (s.setModule m cm).modules m = cm :=
  Function.update_self ..

theorem setModule_modules_ne {x : Int32} (h : x ≠ m) :
    (s.setModule m cm).modules x = s.modules x := Function.update_of_ne h ..

@[simp] theorem post_modules (cs : List Call) : (s.post cs).modules = s.modules := rfl
@[simp] theorem take_modules (c : Call) : (s.take c).modules = s.modules := rfl
@[simp] theorem setModule_inFlight : (s.setModule m cm).inFlight = s.inFlight := rfl
@[simp] theorem post_inFlight (cs : List Call) : (s.post cs).inFlight = s.inFlight ++ cs := rfl
@[simp] theorem take_inFlight (c : Call) : (s.take c).inFlight = s.inFlight.erase c := rfl

end Cluster

open Cluster

variable {R : Replicas} {s s' : Cluster} {e : Event}

/-! ## Inversion of the step -/

/-- The call that an event takes out of flight. -/
@[simp]
def Event.taken : Event → List Call
  | .deliver c | .lose c => [c]
  | _ => []

/-- What an event runs: `m` becomes `cm'` and sends calls. -/
inductive Runs (s : Cluster) : Event → Int32 → ConsensusModule → List Call → Prop
  | timerStart {m : Int32} {k : Nat} (hk : (s.modules m).electionTimers[k]? = some none) :
      Runs s (.timerStart m k) m ((s.modules m).startTimer k) []
  | bailOut {m termStarted : Int32} {k : Nat} {elapsed : Bool}
      (hk : (s.modules m).electionTimers[k]? = some (some termStarted))
      (ha : (s.modules m).runElectionTimer termStarted elapsed = .bailOut) :
      Runs s (.timerTick m k elapsed) m ((s.modules m).stopTimer k) []
  | keepWaiting {m termStarted : Int32} {k : Nat} {elapsed : Bool}
      (hk : (s.modules m).electionTimers[k]? = some (some termStarted))
      (ha : (s.modules m).runElectionTimer termStarted elapsed = .keepWaiting) :
      Runs s (.timerTick m k elapsed) m (s.modules m) []
  | startElection {m termStarted : Int32} {k : Nat} {elapsed : Bool}
      (hk : (s.modules m).electionTimers[k]? = some (some termStarted))
      (ha : (s.modules m).runElectionTimer termStarted elapsed = .startElection) :
      Runs s (.timerTick m k elapsed) m ((s.modules m).stopTimer k).startElection
        (voteRequests ((s.modules m).stopTimer k).startElection)
  | sendHeartbeats {m : Int32} (hst : (s.modules m).state = .leader) :
      Runs s (.sendHeartbeats m) m (s.modules m) (heartbeats (s.modules m))
  | lose {c : Call} : Runs s (.lose c) 0 (s.modules 0) []
  | requestVote {src m : Int32} {k : Nat} {args : RequestVoteArgs} :
      Runs s (.deliver (.requestVote src k m args)) m ((s.modules m).requestVote args).1
        (((s.modules m).requestVote args).2.toList.map (.requestVoteReply src k m))
  | voteReply {m dst : Int32} {k : Nat} {reply : RequestVoteReply} {el : Election}
      (hel : (s.modules m).elections[k]? = some el) :
      Runs s (.deliver (.requestVoteReply m k dst reply)) m
        ((s.modules m).handleVoteReply k el reply) []
  | unknownReply {m dst : Int32} {k : Nat} {reply : RequestVoteReply}
      (hel : (s.modules m).elections[k]? = none) :
      Runs s (.deliver (.requestVoteReply m k dst reply)) m (s.modules m) []
  | appendEntries {src m : Int32} {args : AppendEntriesArgs} :
      Runs s (.deliver (.appendEntries src m args)) m ((s.modules m).appendEntries args).1
        (((s.modules m).appendEntries args).2.toList.map (.appendEntriesReply src m args.term))
  | heartbeatReply {m dst saved : Int32} {reply : AppendEntriesReply} :
      Runs s (.deliver (.appendEntriesReply m dst saved reply)) m
        ((s.modules m).handleHeartbeatReply saved reply) []

attribute [local simp] step in
theorem step_deliver {c : Call} (h : step R s (.deliver c) = some s') :
    c ∈ s.inFlight ∧ s' = (s.take c).receive c := by
  simp at h
  exact ⟨h.1, h.2.symm⟩

attribute [local simp] receive in
theorem exists_runs_of_receive (s : Cluster) (c : Call) :
    ∃ m cm' sent, Runs s (.deliver c) m cm' sent ∧
      (s.take c).receive c = ⟨Function.update s.modules m cm', s.inFlight.erase c ++ sent⟩ := by
  cases c with
  | requestVote src k dst args =>
    refine ⟨dst, _, _, .requestVote, ?_⟩
    simp only [receive, take_modules]
    split <;> simp_all [setModule, post, take]
  | requestVoteReply src k dst reply =>
    cases hel : (s.modules src).elections[k]? with
    | none => exact ⟨src, _, _, .unknownReply hel, by simp [hel, take]⟩
    | some el => exact ⟨src, _, _, .voteReply hel, by simp [hel, setModule, take]⟩
  | appendEntries src dst args =>
    refine ⟨dst, _, _, .appendEntries, ?_⟩
    simp only [receive, take_modules]
    split <;> simp_all [setModule, post, take]
  | appendEntriesReply src dst saved reply =>
    exact ⟨src, _, _, .heartbeatReply, by simp [setModule, take]⟩

attribute [local simp] tick in
/-- **Every step runs something.** -/
theorem step_runs (h : step R s e = some s') :
    ∃ m cm' sent, Runs s e m cm' sent ∧
      s' = ⟨Function.update s.modules m cm', s.inFlight.diff e.taken ++ sent⟩ ∧
      e.taken ⊆ s.inFlight ∧ (e.taken = [] → m ∈ R.ids) := by
  cases e with
  | timerStart m k =>
    simp only [step, Option.ite_none_right_eq_some, Option.some.injEq] at h
    obtain ⟨⟨hm, hk⟩, rfl⟩ := h
    exact ⟨m, _, _, .timerStart hk, by simp [setModule], by simp, fun _ => hm⟩
  | timerTick m k elapsed =>
    simp only [step, Option.ite_none_right_eq_some] at h
    obtain ⟨hm, h⟩ := h
    split at h
    case h_2 => cases h
    case h_1 termStarted hk =>
      obtain rfl := Option.some.inj h
      cases ha : (s.modules m).runElectionTimer termStarted elapsed with
      | bailOut =>
        exact ⟨m, _, _, .bailOut hk ha, by simp [ha, setModule],
          by simp, fun _ => hm⟩
      | keepWaiting =>
        exact ⟨m, _, _, .keepWaiting hk ha, by simp [ha], by simp,
          fun _ => hm⟩
      | startElection =>
        exact ⟨m, _, _, .startElection hk ha, by simp [ha, setModule, post],
          by simp, fun _ => hm⟩
  | sendHeartbeats m =>
    simp only [step, Option.ite_none_right_eq_some, Option.some.injEq] at h
    obtain ⟨⟨hm, hst⟩, rfl⟩ := h
    exact ⟨m, _, _, .sendHeartbeats hst, by simp [post], by simp, fun _ => hm⟩
  | lose c =>
    simp only [step, Option.ite_none_right_eq_some, Option.some.injEq] at h
    obtain ⟨hc, rfl⟩ := h
    exact ⟨0, _, _, .lose, by simp [take], by simpa using hc, nofun⟩
  | deliver c =>
    obtain ⟨hc, rfl⟩ := step_deliver h
    obtain ⟨m, cm', sent, hruns, heq⟩ := exists_runs_of_receive s c
    exact ⟨m, cm', sent, hruns, by simpa using heq, by simpa using hc, nofun⟩

/-- A property of the modules holds after a step, if it held before and holds of what the step
runs. -/
theorem forall_modules_of_step (h : step R s e = some s') {P : Int32 → ConsensusModule → Prop}
    (hold : ∀ x, P x (s.modules x)) (hnew : ∀ m cm' sent, Runs s e m cm' sent → P m cm')
    (x : Int32) : P x (s'.modules x) := by
  obtain ⟨m, cm', sent, hruns, rfl, -⟩ := step_runs h
  by_cases hx : x = m
  · subst hx
    simpa using hnew x cm' sent hruns
  · simpa [hx] using hold x

/-! ## The effect of a delivery -/

theorem effect_requestVote (src : Int32) (k : Nat) (m : Int32) (args : RequestVoteArgs) :
    Effect s (.deliver (.requestVote src k m args)) m ((s.modules m).requestVote args).1 := by
  rcases (s.modules m).requestVote_cases args with ⟨cm', hrv, rfl, hcur⟩ | ⟨hcm, hno⟩
  · rw [hrv]
    have hterm : ((s.modules m).catchUp args.term).currentTerm = args.term := by
      rcases hcur with hlt | ⟨heq, -⟩
      · simp [ConsensusModule.catchUp_of_lt hlt]
      · rw [ConsensusModule.catchUp_of_le (by grind), heq]
    refine .grant src k args rfl (by simp [voteOf, hrv, hterm]) rfl ?_
    rcases hcur with hlt | ⟨heq, hv⟩
    · exact .inl ⟨by simp [hterm, hlt], by simp [ConsensusModule.catchUp_of_lt hlt]⟩
    · have hle : args.term ≤ (s.modules m).currentTerm := by grind
      exact .inr ⟨by simp [hterm, heq], by simp [ConsensusModule.catchUp_of_le hle], hv⟩
  · rw [hcm]
    exact .keep rfl rfl rfl (by simp [voteOf])

theorem effect_voteReply (m : Int32) (k : Nat) (dst : Int32) (reply : RequestVoteReply)
    {el : Election} (hel : (s.modules m).elections[k]? = some el) :
    Effect s (.deliver (.requestVoteReply m k dst reply)) m
      ((s.modules m).handleVoteReply k el reply) := by
  unfold ConsensusModule.handleVoteReply
  by_cases hst : (s.modules m).state = .candidate
  · rw [if_neg (by simp [hst])]
    split_ifs with hlt hg hq
    · exact .follow rfl rfl (.voteReply k dst reply el rfl hel rfl hlt hst) rfl
    · exact .win k dst reply el rfl hel hst hg.1 hg.2 hq rfl rfl rfl rfl
    · exact .keep rfl rfl rfl rfl
    · exact .keep rfl rfl rfl rfl
  · rw [if_pos hst]
    exact .keep rfl rfl rfl rfl

theorem effect_appendEntries (src m : Int32) (args : AppendEntriesArgs) :
    Effect s (.deliver (.appendEntries src m args)) m ((s.modules m).appendEntries args).1 := by
  obtain ⟨cm', rfl, -, -, -, ⟨hs, ht, hv⟩ | ⟨hs, ht, hv, hwhy⟩⟩ :=
    (s.modules m).appendEntries_cases args
  · exact .keep hs ht hv rfl
  · refine .follow hs hv ?_ rfl
    rw [ht]
    rcases hwhy with hlt | ⟨heq, hne⟩
    · exact .ahead hlt
    · exact .heartbeat src args rfl rfl heq hne

theorem effect_heartbeatReply (m dst saved : Int32) (reply : AppendEntriesReply) :
    Effect s (.deliver (.appendEntriesReply m dst saved reply)) m
      ((s.modules m).handleHeartbeatReply saved reply) := by
  unfold ConsensusModule.handleHeartbeatReply
  split_ifs with hlt
  · exact .follow rfl rfl (.heartbeatReply dst saved reply rfl rfl hlt) rfl
  · exact .keep rfl rfl rfl rfl

/-- **What one step can do.** It runs on one module `m`, with one of the five effects, and leaves
the other modules alone. -/
theorem step_effect (h : step R s e = some s') :
    ∃ m, (∀ x, x ≠ m → s'.modules x = s.modules x) ∧ Effect s e m (s'.modules m) := by
  obtain ⟨m, cm', sent, hruns, rfl, -⟩ := step_runs h
  refine ⟨m, fun x hx => Function.update_of_ne hx .., ?_⟩
  simp only [Function.update_self]
  cases hruns with
  | bailOut hk ha | keepWaiting hk ha => exact .keep rfl rfl rfl (by simp [voteOf, hk, ha])
  | startElection hk ha => exact .campaign _ _ rfl rfl rfl rfl (by simp [voteOf, hk, ha])
  | timerStart | sendHeartbeats | lose | unknownReply => exact .keep rfl rfl rfl rfl
  | requestVote => exact effect_requestVote ..
  | voteReply hel => exact effect_voteReply _ _ _ _ hel
  | appendEntries => exact effect_appendEntries ..
  | heartbeatReply => exact effect_heartbeatReply ..

end Dirigent.LeaderElection
