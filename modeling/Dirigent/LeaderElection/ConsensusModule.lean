import Mathlib.Tactic

/-!
# The consensus module

One replica of the control plane's leader election (`consensus_module.go`). Every function here
runs with `cm.mu` held in the source, so it is one step on the module's state.

**Goroutines.** Three kinds outlive the call that starts them, and each leaves a record in the
state:

- `runElectionTimer` — a timer is `none` until it has read `termStarted`, then `some termStarted`.
- the vote goroutines of one `startElection` — they share the closure variables
  `savedCurrentTerm` and `votesReceived`, kept in an `Election`.
- the heartbeat goroutines of one `leaderSendHeartbeats` — their closure is only the saved term,
  which travels with the call (`Dirigent.LeaderElection.Cluster`).

Terms and ids are `int32` in the source and `Int32` here, so `startElection` wraps around as the
source does. Real time is left out: whether a timer's timeout has elapsed is an input of its tick.
-/

namespace Dirigent.LeaderElection

/-- The state of a consensus module (`state.go`). -/
inductive CMState
  | follower
  | candidate
  | leader
  | dead
  deriving DecidableEq, Repr

/-- What a module reports on its leadership channel. -/
structure AnnounceLeadership where
  isLeader : Bool
  term : Int32
  deriving DecidableEq, Repr

structure RequestVoteArgs where
  term : Int32
  candidateID : Int32
  deriving DecidableEq, Repr

structure RequestVoteReply where
  term : Int32
  voteGranted : Bool
  deriving DecidableEq, Repr

structure AppendEntriesArgs where
  term : Int32
  leaderID : Int32
  deriving DecidableEq, Repr

structure AppendEntriesReply where
  term : Int32
  success : Bool
  deriving DecidableEq, Repr

/-- The closure variables of one `startElection` call. -/
structure Election where
  savedCurrentTerm : Int32
  votesReceived : Nat
  deriving DecidableEq, Repr

/-- `votedFor` when the module has not voted. -/
def nobody : Int32 := -1

/-- A consensus module. `announceLeadership` is everything sent on the channel so far. -/
structure ConsensusModule where
  id : Int32
  peerIds : List Int32
  currentTerm : Int32
  votedFor : Int32
  state : CMState
  currentLeaderID : Int32
  announceLeadership : List AnnounceLeadership
  elections : List Election
  electionTimers : List (Option Int32)
  deriving DecidableEq, Repr

/-- A fresh module. Without peers it proclaims itself the leader. -/
def newConsensusModule (id : Int32) (peerIds : List Int32) : ConsensusModule where
  id := id
  peerIds := peerIds
  currentTerm := 0
  votedFor := nobody
  state := if peerIds.length = 0 then .leader else .follower
  currentLeaderID := 0
  announceLeadership := if peerIds.length = 0 then [⟨true, 0⟩] else []
  elections := []
  electionTimers := [none]

namespace ConsensusModule

/-- Make `cm` a follower of `term`. The term is overwritten whatever it was, and the vote is
forgotten. The announcement carries the old term. -/
def becomeFollower (cm : ConsensusModule) (term : Int32) : ConsensusModule :=
  { cm with
    announceLeadership := cm.announceLeadership ++ [⟨false, cm.currentTerm⟩]
    state := .follower
    currentTerm := term
    votedFor := nobody
    electionTimers := cm.electionTimers ++ [none] }

/-- Switch `cm` into the leader state, in whatever term it is. -/
def startLeader (cm : ConsensusModule) : ConsensusModule :=
  { cm with
    state := .leader
    announceLeadership := cm.announceLeadership ++ [⟨true, cm.currentTerm⟩] }

/-- Start an election: a new term, a vote for itself, and a new closure for the vote goroutines. -/
def startElection (cm : ConsensusModule) : ConsensusModule :=
  { cm with
    state := .candidate
    currentTerm := cm.currentTerm + 1
    votedFor := cm.id
    elections := cm.elections ++ [⟨cm.currentTerm + 1, 1⟩]
    electionTimers := cm.electionTimers ++ [none] }

/-- Both handlers first fall back to follower when the caller's term is ahead. -/
def catchUp (cm : ConsensusModule) (term : Int32) : ConsensusModule :=
  if cm.currentTerm < term then cm.becomeFollower term else cm

/-- Answer a `RequestVote`. A dead module answers nothing. -/
def requestVote (cm : ConsensusModule) (args : RequestVoteArgs) :
    ConsensusModule × Option RequestVoteReply :=
  if cm.state = .dead then (cm, none)
  else
    let cm := cm.catchUp args.term
    if cm.currentTerm = args.term ∧ (cm.votedFor = nobody ∨ cm.votedFor = args.candidateID) then
      ({ cm with votedFor := args.candidateID }, some ⟨cm.currentTerm, true⟩)
    else (cm, some ⟨cm.currentTerm, false⟩)

/-- Answer an `AppendEntries`. The leader id is taken over before the term is compared. -/
def appendEntries (cm : ConsensusModule) (args : AppendEntriesArgs) :
    ConsensusModule × Option AppendEntriesReply :=
  if cm.state = .dead then (cm, none)
  else
    let cm := cm.catchUp args.term
    let cm := { cm with currentLeaderID := args.leaderID }
    if args.term = cm.currentTerm then
      let cm := if cm.state ≠ .follower then cm.becomeFollower args.term else cm
      (cm, some ⟨cm.currentTerm, true⟩)
    else (cm, some ⟨cm.currentTerm, false⟩)

/-- Record one more vote in the closure of the `k`-th election. -/
def countVote (cm : ConsensusModule) (k : Nat) (el : Election) : ConsensusModule :=
  { cm with elections := cm.elections.set k { el with votesReceived := el.votesReceived + 1 } }

/-- A vote goroutine of the election `el`, the `k`-th, gets its reply. It compares the reply with
the term saved when the election started, not with the current one. -/
def handleVoteReply (cm : ConsensusModule) (k : Nat) (el : Election) (reply : RequestVoteReply) :
    ConsensusModule :=
  if cm.state ≠ .candidate then cm
  else if el.savedCurrentTerm < reply.term then cm.becomeFollower reply.term
  else if reply.term = el.savedCurrentTerm ∧ reply.voteGranted = true then
    if cm.peerIds.length + 1 < (el.votesReceived + 1) * 2 then (cm.countVote k el).startLeader
    else cm.countVote k el
  else cm

/-- A heartbeat goroutine gets its reply. Neither the state nor the current term is looked at. -/
def handleHeartbeatReply (cm : ConsensusModule) (savedCurrentTerm : Int32)
    (reply : AppendEntriesReply) : ConsensusModule :=
  if savedCurrentTerm < reply.term then cm.becomeFollower reply.term else cm

/-- What a tick of an election timer decides. -/
inductive TimerAction
  | bailOut
  | startElection
  | keepWaiting
  deriving DecidableEq, Repr

/-- The `k`-th timer goroutine reads the term it starts in. -/
def startTimer (cm : ConsensusModule) (k : Nat) : ConsensusModule :=
  { cm with electionTimers := cm.electionTimers.set k (some cm.currentTerm) }

/-- The `k`-th timer goroutine returns. -/
def stopTimer (cm : ConsensusModule) (k : Nat) : ConsensusModule :=
  { cm with electionTimers := cm.electionTimers.eraseIdx k }

/-- One tick of `runElectionTimer` with the term it started in. -/
def runElectionTimer (cm : ConsensusModule) (termStarted : Int32) (elapsed : Bool) : TimerAction :=
  if cm.state ≠ .candidate ∧ cm.state ≠ .follower then .bailOut
  else if termStarted ≠ cm.currentTerm then .bailOut
  else if elapsed = true then .startElection
  else .keepWaiting

attribute [simps state currentTerm votedFor id peerIds elections]
  becomeFollower startLeader countVote startTimer stopTimer startElection

end ConsensusModule

end Dirigent.LeaderElection
