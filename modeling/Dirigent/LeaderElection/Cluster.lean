import Dirigent.Machine
import Dirigent.LeaderElection.ConsensusModule

/-!
# The replicated control plane

The replicas of the control plane as one machine: their consensus modules, and the calls between
them that are still on their way. A call is first a request, then a reply; both wait in `inFlight`
until they are delivered, in any order and after any delay, or lost. A call is never answered
twice.

An event is one critical section of `cm.mu` on one replica: a timer goroutine reads the term or
ticks, a leader sends a round of heartbeats, or a request or a reply is handled.
-/

namespace Dirigent.LeaderElection

/-- The replicas that take part in the election: distinct ids, none of which is the marker for
"nobody". In `CreateNewCpApiServer` the ids are the ports of the replicas. -/
structure Replicas where
  ids : List Int32
  nodup : ids.Nodup
  nobody_notMem : nobody ∉ ids

/-- A call between replicas. `src` is the caller and `dst` the peer, also in a reply. -/
inductive Call
  | requestVote (src : Int32) (election : Nat) (dst : Int32) (args : RequestVoteArgs)
  | requestVoteReply (src : Int32) (election : Nat) (dst : Int32) (reply : RequestVoteReply)
  | appendEntries (src dst : Int32) (args : AppendEntriesArgs)
  | appendEntriesReply (src dst : Int32) (savedCurrentTerm : Int32) (reply : AppendEntriesReply)
  deriving DecidableEq, Repr

structure Cluster where
  modules : Int32 → ConsensusModule
  inFlight : List Call

inductive Event
  /-- A timer goroutine of `m` starts: it reads the current term. -/
  | timerStart (m : Int32) (k : Nat)
  /-- A timer goroutine of `m` ticks. -/
  | timerTick (m : Int32) (k : Nat) (elapsed : Bool)
  /-- `leaderSendHeartbeats` on `m`. -/
  | sendHeartbeats (m : Int32)
  | deliver (c : Call)
  | lose (c : Call)
  deriving DecidableEq, Repr

namespace Cluster

def setModule (s : Cluster) (m : Int32) (cm : ConsensusModule) : Cluster :=
  { s with modules := Function.update s.modules m cm }

def post (s : Cluster) (cs : List Call) : Cluster := { s with inFlight := s.inFlight ++ cs }

def take (s : Cluster) (c : Call) : Cluster := { s with inFlight := s.inFlight.erase c }

/-- The requests that the newest election of `cm` sends. -/
def voteRequests (cm : ConsensusModule) : List Call :=
  cm.peerIds.map fun peerId =>
    .requestVote cm.id (cm.elections.length - 1) peerId ⟨cm.currentTerm, cm.id⟩

/-- One round of heartbeats of the leader `cm`. -/
def heartbeats (cm : ConsensusModule) : List Call :=
  cm.peerIds.map fun peerId => .appendEntries cm.id peerId ⟨cm.currentTerm, cm.id⟩

/-- A timer of `m` ticks. -/
def tick (s : Cluster) (m : Int32) (k : Nat) (termStarted : Int32) (elapsed : Bool) : Cluster :=
  match (s.modules m).runElectionTimer termStarted elapsed with
  | .bailOut => s.setModule m ((s.modules m).stopTimer k)
  | .keepWaiting => s
  | .startElection =>
    let cm := ((s.modules m).stopTimer k).startElection
    (s.setModule m cm).post (voteRequests cm)

/-- Handle a call that has arrived, in a cluster where it is no longer in flight. -/
def receive (s : Cluster) : Call → Cluster
  | .requestVote src k dst args =>
    match (s.modules dst).requestVote args with
    | (cm, some reply) => (s.setModule dst cm).post [.requestVoteReply src k dst reply]
    | (cm, none) => s.setModule dst cm
  | .requestVoteReply src k _ reply =>
    match (s.modules src).elections[k]? with
    | some el => s.setModule src ((s.modules src).handleVoteReply k el reply)
    | none => s
  | .appendEntries src dst args =>
    match (s.modules dst).appendEntries args with
    | (cm, some reply) => (s.setModule dst cm).post [.appendEntriesReply src dst args.term reply]
    | (cm, none) => s.setModule dst cm
  | .appendEntriesReply src _ savedCurrentTerm reply =>
    s.setModule src ((s.modules src).handleHeartbeatReply savedCurrentTerm reply)

end Cluster

variable (R : Replicas)

/-- The step of the cluster. -/
def step (s : Cluster) : Event → Option Cluster
  | .timerStart m k =>
    if m ∈ R.ids ∧ (s.modules m).electionTimers[k]? = some none then
      some (s.setModule m ((s.modules m).startTimer k))
    else none
  | .timerTick m k elapsed =>
    if m ∈ R.ids then
      match (s.modules m).electionTimers[k]? with
      | some (some termStarted) => some (s.tick m k termStarted elapsed)
      | _ => none
    else none
  | .sendHeartbeats m =>
    if m ∈ R.ids ∧ (s.modules m).state = .leader then
      some (s.post (Cluster.heartbeats (s.modules m)))
    else none
  | .deliver c => if c ∈ s.inFlight then some ((s.take c).receive c) else none
  | .lose c => if c ∈ s.inFlight then some (s.take c) else none

/-- The election protocol: every replica is fresh, and names the others as its peers. -/
def protocol : Machine Cluster Event where
  init s := s.inFlight = [] ∧ ∀ m ∈ R.ids,
    ∃ peerIds, peerIds.Perm (R.ids.erase m) ∧ s.modules m = newConsensusModule m peerIds
  next := step R

/-! ## Three replicas

The smallest cluster with a majority that is not everybody, for schedules. -/

def threeReplicas : Replicas where
  ids := [1, 2, 3]
  nodup := by decide
  nobody_notMem := by decide

def threeFresh : Cluster where
  modules m := newConsensusModule m (threeReplicas.ids.erase m)
  inFlight := []

theorem threeFresh_init : (protocol threeReplicas).init threeFresh :=
  ⟨rfl, fun _ _ => ⟨_, .rfl, rfl⟩⟩

/-- The first timer of `m` starts and times out at once: `m` starts an election. -/
def timeout (m : Int32) : List Event := [.timerStart m 0, .timerTick m 0 true]

end Dirigent.LeaderElection
