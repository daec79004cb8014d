import Dirigent.LeaderElection.Terms

/-!
# API calls beside the election

Every handler of `CpApiServer` first asks whether its replica is the leader and, if it is not, asks
for the leader's client to forward the call. `GetLeader` makes the same test a second time, and
exits the process if the replica leads by now. The two tests are in separate critical sections of
`cm.mu`, and the election can be won between them.

* `ApiServers` — the replicas with the calls they are handling; `servers` — all interleavings of the
  calls with the election protocol.
* `no_exit` — no process exits, as long as no replica wins an election while one of its calls is
  between the two tests (`WinsAmidCall`).

The eleven handlers are alike in this; the HTTP handler tests the leadership once more before it
calls `RegisterService`. What a call does once it is served or forwarded is left out.
-/

namespace Dirigent.LeaderElection

open Cluster

/-! ## The leadership tests -/

/-- `IsLeader` -/
def ConsensusModule.isLeader (cm : ConsensusModule) : Bool := cm.state == .leader

/-- How far a call has got. -/
inductive Stage
  | received
  /-- The handler's `IsLeader` has answered `false`. -/
  | notLeader
  /-- So has the one in `GetLeader`. -/
  | asksLeaderID
  | forwarded (leaderID : Int32)
  /-- There is no client for the leader's id. -/
  | refused
  | served
  /-- The fatal branch of `GetLeader`. -/
  | exited
  deriving DecidableEq, Repr

/-- A call at a replica. `viaHTTP` says that it is still in the HTTP registration handler. -/
structure ApiCall where
  replica : Int32
  viaHTTP : Bool
  stage : Stage := .received
  deriving DecidableEq, Repr

/-- The next critical section of a call. `connected` says whether `peerClients` has the leader. -/
def ApiCall.run (c : ApiCall) (cm : ConsensusModule) (connected : Bool) : Option ApiCall :=
  match c.stage with
  | .received =>
    if cm.isLeader then
      -- the HTTP handler goes on with the handler of `RegisterService`
      if c.viaHTTP then some { c with viaHTTP := false } else some { c with stage := .served }
    else some { c with stage := .notLeader }
  | .notLeader =>
    if cm.isLeader then some { c with stage := .exited } else some { c with stage := .asksLeaderID }
  | .asksLeaderID =>
    if connected then some { c with stage := .forwarded cm.currentLeaderID }
    else some { c with stage := .refused }
  | _ => none

/-! ## All interleavings -/

structure ApiServers where
  cluster : Cluster
  calls : List ApiCall

inductive ApiEvent
  | election (e : Event)
  /-- A call arrives. -/
  | receive (m : Int32) (viaHTTP : Bool)
  /-- The `k`-th call goes on. -/
  | proceed (k : ℕ) (connected : Bool)

/-- The replicas `R` with their API servers. -/
def servers (R : Replicas) : Machine ApiServers ApiEvent where
  init s := (protocol R).init s.cluster ∧ s.calls = []
  next s
    | .election e => (step R s.cluster e).map fun c => { s with cluster := c }
    | .receive m viaHTTP =>
      if m ∈ R.ids then some { s with calls := s.calls ++ [⟨m, viaHTTP, .received⟩] } else none
    | .proceed k connected =>
      s.calls[k]?.bind fun c =>
        (c.run (s.cluster.modules c.replica) connected).map fun c' =>
          { s with calls := s.calls.set k c' }

/-! ## Between the tests -/

/-- The event wins `m` its election. -/
def Wins (s : Cluster) : Event → Int32 → Prop
  | .deliver (.requestVoteReply src k _ reply), m =>
    src = m ∧ (s.modules m).state = .candidate ∧ reply.voteGranted = true ∧
      ∃ el ∈ (s.modules m).elections[k]?, reply.term = el.savedCurrentTerm ∧
        (s.modules m).peerIds.length + 1 < (el.votesReceived + 1) * 2
  | _, _ => False

/-- The event wins an election for a replica one of whose calls is between the two tests. -/
def WinsAmidCall (s : ApiServers) : ApiEvent → Prop
  | .election e => ∃ c ∈ s.calls, c.stage = .notLeader ∧ Wins s.cluster e c.replica
  | _ => False

instance (s : Cluster) : (e : Event) → (m : Int32) → Decidable (Wins s e m)
  | .timerStart .., _ | .timerTick .., _ | .sendHeartbeats .., _ | .lose .., _ =>
    inferInstanceAs (Decidable False)
  | .deliver (.requestVote ..), _ | .deliver (.appendEntries ..), _
  | .deliver (.appendEntriesReply ..), _ => inferInstanceAs (Decidable False)
  | .deliver (.requestVoteReply ..), _ => inferInstanceAs (Decidable (_ ∧ _))

instance (s : ApiServers) : (e : ApiEvent) → Decidable (WinsAmidCall s e)
  | .election _ => inferInstanceAs (Decidable (∃ c ∈ s.calls, _))
  | .receive .. | .proceed .. => inferInstanceAs (Decidable False)

variable {R : Replicas}

theorem wins_of_step {s s' : Cluster} {e : Event} (h : step R s e = some s') {m : Int32}
    (hs : (s.modules m).state ≠ .leader) (hs' : (s'.modules m).state = .leader) : Wins s e m := by
  obtain ⟨x, hframe, heff⟩ := step_effect h
  by_cases hm : m = x
  · subst hm
    cases heff with
    | keep hst => exact absurd (hst.symm.trans hs') hs
    | follow hst | campaign k elapsed he hst => rw [hst] at hs'; cases hs'
    | grant src k args he hvote hv hcur =>
      rcases hcur with ⟨-, hst⟩ | ⟨-, hst, -⟩
      · rw [hst] at hs'; cases hs'
      · exact absurd (hst.symm.trans hs') hs
    | win k dst reply el he hel hst hT hg hq =>
      subst he
      exact ⟨rfl, hst, hg, el, hel, hT, hq⟩
  · rw [hframe m hm] at hs'
    exact absurd hs' hs

/-- A call between the tests is at a replica that does not lead, and no call has exited. -/
def CallsSafe (s : ApiServers) : Prop :=
  ∀ c ∈ s.calls, c.stage ≠ .exited ∧
    (c.stage = .notLeader → (s.cluster.modules c.replica).state ≠ .leader)

theorem callsSafe_run {c c' : ApiCall} {cm : ConsensusModule} {connected : Bool}
    (h : c.run cm connected = some c') (hc : c.stage = .notLeader → cm.state ≠ .leader) :
    c'.replica = c.replica ∧ c'.stage ≠ .exited ∧ (c'.stage = .notLeader → cm.state ≠ .leader) := by
  unfold ApiCall.run ConsensusModule.isLeader at h
  cases hst : c.stage with
  | received | asksLeaderID => grind
  | notLeader =>
    have hne := hc hst
    rw [hst] at h
    simp only [beq_iff_eq, hne, if_false, Option.some.injEq] at h
    subst h
    simp
  | forwarded leaderID | refused | served | exited => simp [hst] at h

theorem callsSafe_step {s s' : ApiServers} {e : ApiEvent} (h : (servers R).next s e = some s')
    (hG : ¬ WinsAmidCall s e) (hI : CallsSafe s) : CallsSafe s' := by
  cases e with
  | election e =>
    simp only [servers, Option.map_eq_some_iff] at h
    obtain ⟨cluster, hstep, rfl⟩ := h
    intro c hc
    refine ⟨(hI c hc).1, fun hst hlead => hG ⟨c, hc, hst, ?_⟩⟩
    exact wins_of_step hstep ((hI c hc).2 hst) hlead
  | receive m viaHTTP =>
    simp only [servers, Option.ite_none_right_eq_some, Option.some.injEq] at h
    obtain ⟨-, rfl⟩ := h
    exact List.forall_mem_append.2 ⟨hI, by simp⟩
  | proceed k connected =>
    simp only [servers, Option.bind_eq_some_iff, Option.map_eq_some_iff] at h
    obtain ⟨c, hc, c', hrun, rfl⟩ := h
    have hsafe := hI c (List.mem_of_getElem? hc)
    obtain ⟨hreplica, hexit, hlead⟩ := callsSafe_run hrun hsafe.2
    intro d hd
    rcases List.mem_or_eq_of_mem_set hd with hd | rfl
    · exact hI d hd
    · exact ⟨hexit, by rwa [hreplica]⟩

/-- **No process exits.** In every run in which no replica wins an election while one of its calls
is between the two leadership tests, no call reaches the fatal branch of `GetLeader`. -/
theorem no_exit {tr : List (Machine.Step ApiServers ApiEvent)} {s : ApiServers}
    (h : (servers R).Run tr s) (hG : ∀ t ∈ tr, ¬ WinsAmidCall t.src t.event) :
    ∀ c ∈ s.calls, c.stage ≠ .exited := by
  have hI : CallsSafe s :=
    h.invariant (I := fun _ s => CallsSafe s) (G := fun t => ¬ WinsAmidCall t.src t.event)
      (fun s hs => by simp [CallsSafe, hs.2])
      (fun _ _ _ _ _ hI hG hn => callsSafe_step hn hG hI) hG
  intro c hc
  exact (hI c hc).1

def threeServers : ApiServers := ⟨threeFresh, []⟩

/-- Replica 1 becomes a candidate, and replica 2 votes for it; the vote is on its way. -/
def campaignOfOne : List ApiEvent :=
  (timeout 1 ++ [Event.deliver (.requestVote 1 0 2 ⟨1, 1⟩)]).map .election

def voteForOne : ApiEvent := .election (.deliver (.requestVoteReply 1 0 2 ⟨1, true⟩))

/-- A call is served by replica 1 after its election, another is refused by replica 2. -/
theorem no_exit_afterElection :
    ∃ tr s, (servers threeReplicas).Run tr s ∧
      s.calls = [⟨1, false, .served⟩, ⟨2, true, .refused⟩] ∧
      (∀ t ∈ tr, ¬ WinsAmidCall t.src t.event) ∧ ∀ c ∈ s.calls, c.stage ≠ .exited := by
  obtain ⟨tr, s, hrun, hcalls, hG⟩ := Machine.exists_run_of_play
    (campaignOfOne ++ [.receive 1 false, .receive 2 true, .proceed 1 false, voteForOne,
      .proceed 0 false, .proceed 1 false, .proceed 1 false])
    (M := servers threeReplicas) (s := threeServers)
    (P := fun tr s => s.calls = [⟨1, false, .served⟩, ⟨2, true, .refused⟩] ∧
      ∀ t ∈ tr, ¬ WinsAmidCall t.src t.event)
    ⟨threeFresh_init, rfl⟩ (by decide +kernel)
  exact ⟨tr, s, hrun, hcalls, hG, no_exit hrun hG⟩

/-- A call finds replica 1 not leading, replica 1 wins its election, and the call exits it. -/
theorem not_no_exit : ¬ ∀ (R : Replicas) (tr : List (Machine.Step ApiServers ApiEvent))
    (s : ApiServers), (servers R).Run tr s → ∀ c ∈ s.calls, c.stage ≠ .exited := by
  intro hall
  obtain ⟨tr, s, hrun, c, hc, hexit⟩ := Machine.exists_run_of_play
    (campaignOfOne ++ [.receive 1 false, .proceed 0 false, voteForOne, .proceed 0 false])
    (M := servers threeReplicas) (s := threeServers)
    (P := fun _ s => ∃ c ∈ s.calls, c.stage = .exited) ⟨threeFresh_init, rfl⟩ (by decide +kernel)
  exact hall _ tr s hrun c hc hexit

end Dirigent.LeaderElection
