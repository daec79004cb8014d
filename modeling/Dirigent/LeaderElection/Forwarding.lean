import Mathlib.Logic.Relation
import Dirigent.LeaderElection.ApiServer

/-!
# Forwarding to the leader

A replica that does not lead forwards a call to `currentLeaderID`, which is the sender of the last
heartbeat it has handled. Nothing clears that pointer: a leader that steps down because of a vote
request still points to whoever it followed before, and two replicas can point to each other.

**Theorem (`forwarding_ends`).** In a run in which no step misleads (`Misleads`), every chain of
forwards ends, and there is no cycle.

The proof follows the term of the last heartbeat that each replica has handled (`lastHeartbeat`). A
heartbeat of term `T` that was sent is backed by its sender (`HeartbeatBacked`): the sender still
leads, or it has since handled a heartbeat of a term after `T`, or it points to nobody. So the term
rises along a chain of forwards.

**Theorem (`knownLeader_latest`).** The pointer is the leader of the latest heartbeat, unless a
heartbeat of an earlier term overwrites it (`Distracts`).
-/

namespace Dirigent.LeaderElection

open Cluster Relation

/-- The client that `GetLeader` returns at a replica that does not lead, where `peerClients` are
the peers it is connected to. -/
def ConsensusModule.getLeader (cm : ConsensusModule) (peerClients : List Int32) : Option Int32 :=
  if cm.currentLeaderID ∈ peerClients then some cm.currentLeaderID else none

/-- The `peerClients` of the replicas: `EstablishLeaderElectionMesh` connects to peers only. -/
structure PeerClients (R : Replicas) where
  clients : Int32 → List Int32
  peer : ∀ m ∈ R.ids, ∀ j ∈ clients m, j ∈ R.ids.erase m

/-- A call at `m` is forwarded to `j`. -/
def Forwards {R : Replicas} (C : PeerClients R) (s : Cluster) (m j : Int32) : Prop :=
  (s.modules m).isLeader = false ∧ (s.modules m).getLeader (C.clients m) = some j

/-- A call at `m` is not forwarded: `m` leads, or `GetLeader` returns nil. -/
def Ends {R : Replicas} (C : PeerClients R) (s : Cluster) (m : Int32) : Prop :=
  (s.modules m).isLeader = true ∨ (s.modules m).getLeader (C.clients m) = none

/-- The steps after which a pointer can lead back: a replica handles a heartbeat of an earlier term,
or leads and handles one of its own term; a leader that points to a peer is deposed by a vote
request or by the reply to a heartbeat; a leader falls back within its term; a term goes back. -/
def Misleads (s : Cluster) : Event → Prop
  | .deliver (.requestVote _ _ dst args) =>
    (s.modules dst).state = .leader ∧ (s.modules dst).currentTerm < args.term ∧
      (s.modules dst).currentLeaderID ∈ (s.modules dst).peerIds
  | .deliver (.appendEntries _ dst args) =>
    args.term < (s.modules dst).currentTerm ∨
      args.term = (s.modules dst).currentTerm ∧ (s.modules dst).state = .leader
  | .deliver (.appendEntriesReply src _ saved reply) =>
    saved < reply.term ∧ (reply.term < (s.modules src).currentTerm ∨
      (s.modules src).state = .leader ∧ (reply.term = (s.modules src).currentTerm ∨
        (s.modules src).currentLeaderID ∈ (s.modules src).peerIds))
  | e => TermGoesBack s e

instance (s : Cluster) : (e : Event) → Decidable (Misleads s e)
  | .timerStart .. | .sendHeartbeats .. | .lose .. => inferInstanceAs (Decidable False)
  | .timerTick .. => inferInstanceAs (Decidable (_ ∧ _))
  | .deliver (.requestVote ..) => inferInstanceAs (Decidable (_ ∧ _))
  | .deliver (.appendEntries ..) => inferInstanceAs (Decidable (_ ∨ _))
  | .deliver (.requestVoteReply ..) => inferInstanceAs (Decidable (_ ∧ _))
  | .deliver (.appendEntriesReply ..) => inferInstanceAs (Decidable (_ ∧ _))

instance {R : Replicas} (C : PeerClients R) (s : Cluster) (m j : Int32) :
    Decidable (Forwards C s m j) := inferInstanceAs (Decidable (_ ∧ _))

/-- The term of the last heartbeat that `m` has handled. -/
def lastHeartbeat : List (Machine.Step Cluster Event) → Int32 → Option Int32
  | [], _ => none
  | t :: tr, m =>
    match t.event with
    | .deliver (.appendEntries _ dst args) =>
      if dst = m then some args.term else lastHeartbeat tr m
    | _ => lastHeartbeat tr m

variable {R : Replicas} {s s' : Cluster} {e : Event} {tr : List (Machine.Step Cluster Event)}
  {C : PeerClients R} {m j k : Int32}

/-! ## What a step does to terms and pointers -/

/-- What a step that is no heartbeat does to a module, unless it misleads. -/
structure Advances (cm cm' : ConsensusModule) : Prop where
  term : cm.currentTerm ≤ cm'.currentTerm
  pointer : cm'.currentLeaderID = cm.currentLeaderID
  peers : cm'.peerIds = cm.peerIds
  deposed : cm.state = .leader → cm'.state = .leader ∨
    cm.currentTerm < cm'.currentTerm ∧ cm.currentLeaderID ∉ cm.peerIds

theorem advances_refl (cm : ConsensusModule) : Advances cm cm :=
  ⟨Int32.le_refl _, rfl, rfl, .inl⟩

variable {cm : ConsensusModule} {args : AppendEntriesArgs} {t : Machine.Step Cluster Event}

theorem advances_becomeFollower {T : Int32} (hT : cm.currentTerm ≤ T)
    (hlead : cm.state = .leader → cm.currentTerm < T ∧ cm.currentLeaderID ∉ cm.peerIds) :
    Advances cm (cm.becomeFollower T) :=
  ⟨hT, rfl, rfl, fun h => .inr (hlead h)⟩

theorem advances_requestVote {args : RequestVoteArgs}
    (h : cm.state = .leader → cm.currentTerm < args.term → cm.currentLeaderID ∉ cm.peerIds) :
    Advances cm (cm.requestVote args).1 := by
  rcases cm.requestVote_cases args with ⟨cm', hrv, rfl, hcur⟩ | ⟨hcm, -⟩
  · rw [hrv]
    by_cases hlt : cm.currentTerm < args.term
    · rw [ConsensusModule.catchUp_of_lt hlt]
      have hadv : Advances cm (cm.becomeFollower args.term) :=
        advances_becomeFollower (by grind) fun hl => ⟨hlt, h hl hlt⟩
      exact ⟨hadv.term, hadv.pointer, hadv.peers, hadv.deposed⟩
    · rw [ConsensusModule.catchUp_of_le (by grind)]
      exact ⟨Int32.le_refl _, rfl, rfl, .inl⟩
  · rw [hcm]
    exact advances_refl cm

theorem advances_handleVoteReply {k : ℕ} {el : Election} {reply : RequestVoteReply}
    (h : cm.state = .candidate → el.savedCurrentTerm < reply.term → cm.currentTerm ≤ reply.term) :
    Advances cm (cm.handleVoteReply k el reply) := by
  unfold ConsensusModule.handleVoteReply
  split_ifs with hst hlt hg hq
  · exact advances_refl cm
  · have hcand : cm.state = .candidate := not_not.1 hst
    exact advances_becomeFollower (h hcand hlt) fun hl => by simp [hcand] at hl
  · exact ⟨Int32.le_refl _, rfl, rfl, fun _ => .inl rfl⟩
  · exact ⟨Int32.le_refl _, rfl, rfl, .inl⟩
  · exact advances_refl cm

theorem advances_handleHeartbeatReply {saved : Int32} {reply : AppendEntriesReply}
    (hT : saved < reply.term → cm.currentTerm ≤ reply.term)
    (hlead : saved < reply.term → cm.state = .leader →
      cm.currentTerm < reply.term ∧ cm.currentLeaderID ∉ cm.peerIds) :
    Advances cm (cm.handleHeartbeatReply saved reply) := by
  unfold ConsensusModule.handleHeartbeatReply
  split_ifs with hlt
  · exact advances_becomeFollower (hT hlt) (hlead hlt)
  · exact advances_refl cm

theorem alive_of_run (h : (protocol R).Run tr s) : ∀ m ∈ R.ids, (s.modules m).state ≠ .dead := by
  refine h.invariant_state (I := fun s => ∀ m ∈ R.ids, (s.modules m).state ≠ .dead) ?_ ?_
  · rintro s ⟨-, hfresh⟩ m hm
    obtain ⟨p, -, hp⟩ := hfresh m hm
    rw [hp]
    simp only [newConsensusModule]
    split <;> simp
  · intro s e s' hI hn m hm
    obtain ⟨x, hframe, heff⟩ := step_effect hn
    have halive := hI m hm
    by_cases hx : m = x
    · subst hx
      cases heff <;> grind
    · rwa [hframe m hx]

theorem appendEntries_of_lt (hd : cm.state ≠ .dead) (hlt : args.term < cm.currentTerm) :
    cm.appendEntries args =
      ({ cm with currentLeaderID := args.leaderID }, some ⟨cm.currentTerm, false⟩) := by
  have hne : args.term ≠ cm.currentTerm := by grind
  simp [ConsensusModule.appendEntries, hd, ConsensusModule.catchUp_of_le (Int32.le_of_lt hlt), hne]

theorem appendEntries_of_le (hd : cm.state ≠ .dead) (hle : cm.currentTerm ≤ args.term) :
    (cm.appendEntries args).1.currentTerm = args.term ∧
      (cm.appendEntries args).1.currentLeaderID = args.leaderID ∧
      (cm.appendEntries args).2 = some ⟨args.term, true⟩ := by
  unfold ConsensusModule.appendEntries
  rw [if_neg hd]
  by_cases hlt : cm.currentTerm < args.term
  · simp [ConsensusModule.catchUp_of_lt hlt]
  · have heq : args.term = cm.currentTerm := by grind
    rw [ConsensusModule.catchUp_of_le (by grind)]
    by_cases hf : cm.state = .follower
    · simp [heq, hf]
    · simp [heq, hf, ConsensusModule.becomeFollower]

/-- **What a step does**, unless it misleads: it hands one replica a heartbeat that is not behind,
or it advances every replica without one. -/
theorem step_advances (tr : List (Machine.Step Cluster Event)) (h : step R s e = some s')
    (hG : ¬ Misleads s e) :
    (∃ src m args, e = .deliver (.appendEntries src m args) ∧
      .appendEntries src m args ∈ s.inFlight ∧ (∀ x ≠ m, s'.modules x = s.modules x) ∧
      s'.modules m = ((s.modules m).appendEntries args).1 ∧
      (s.modules m).currentTerm ≤ args.term ∧
      ((s.modules m).state = .leader → (s.modules m).currentTerm < args.term)) ∨
    (∀ x, lastHeartbeat (⟨s, e, s'⟩ :: tr) x = lastHeartbeat tr x) ∧
      ∀ x, Advances (s.modules x) (s'.modules x) := by
  by_cases hbeat : ∃ src m args, e = .deliver (.appendEntries src m args)
  · obtain ⟨src, m, args, rfl⟩ := hbeat
    obtain ⟨_, _, _, hruns, rfl, htaken, -⟩ := step_runs h
    cases hruns
    refine .inl ⟨src, m, args, rfl, htaken List.mem_cons_self, fun x hx => by simp [hx], by simp,
      ?_, fun hl => ?_⟩
    · by_contra hlt
      exact hG (.inl (by grind))
    · by_contra hlt
      by_cases heq : args.term = (s.modules m).currentTerm
      · exact hG (.inr ⟨heq, hl⟩)
      · exact hG (.inl (by grind))
  refine .inr ⟨fun x => ?_, forall_modules_of_step h (fun x => advances_refl _) ?_⟩
  · simp only [lastHeartbeat]
    split
    · exact absurd ⟨_, _, _, rfl⟩ hbeat
    · rfl
  intro m cm' sent hruns
  cases hruns with
  | startElection hk ha =>
    refine ⟨le_add_one fun hmax => hG ⟨by simp [voteOf, hk, ha], hmax⟩, rfl, rfl, fun hl => ?_⟩
    -- a leader's timer returns without an election
    simp [ConsensusModule.runElectionTimer, hl] at ha
  | requestVote => exact advances_requestVote fun hl hlt hp => hG ⟨hl, hlt, hp⟩
  | @voteReply _ _ _ _ el hel =>
    refine advances_handleVoteReply fun hst hlt => ?_
    by_contra hback
    exact hG ⟨hst, by grind, el, hel, hlt⟩
  | appendEntries => exact absurd ⟨_, _, _, rfl⟩ hbeat
  | @heartbeatReply _ _ saved reply =>
    refine advances_handleHeartbeatReply (fun hlt => ?_) fun hlt hl => ?_
    · by_contra hback
      exact hG ⟨hlt, .inl (by grind)⟩
    · refine ⟨?_, fun hp => hG ⟨hlt, .inr ⟨hl, .inr hp⟩⟩⟩
      by_contra hle
      by_cases heq : reply.term = (s.modules m).currentTerm
      · exact hG ⟨hlt, .inr ⟨hl, .inl heq⟩⟩
      · exact hG ⟨hlt, .inl (by grind)⟩
  | _ => exact ⟨Int32.le_refl _, rfl, rfl, .inl⟩

/-! ## Heartbeats are backed by their senders -/

/-- A heartbeat of term `T` from `j` is backed: `j` leads, or has gone on to a later term and points
to nobody or to the sender of a later heartbeat. -/
def HeartbeatBacked (tr : List (Machine.Step Cluster Event)) (s : Cluster) (j T : Int32) : Prop :=
  T ≤ (s.modules j).currentTerm ∧ ((s.modules j).state = .leader ∨
    T < (s.modules j).currentTerm ∧ ((s.modules j).currentLeaderID ∈ (s.modules j).peerIds →
      ∃ T', lastHeartbeat tr j = some T' ∧ T < T'))

theorem HeartbeatBacked.advance {j T : Int32} (hb : HeartbeatBacked tr s j T)
    (hadv : Advances (s.modules j) (s'.modules j))
    (hlast : lastHeartbeat (t :: tr) j = lastHeartbeat tr j) :
    HeartbeatBacked (t :: tr) s' j T := by
  obtain ⟨hle, hstate⟩ := hb
  have hterm := hadv.term
  refine ⟨Int32.le_trans hle hterm, ?_⟩
  rw [hadv.pointer, hadv.peers, hlast]
  rcases hstate with hl | ⟨hlt, hptr⟩
  · rcases hadv.deposed hl with hl' | ⟨hlt, hno⟩
    · exact .inl hl'
    · exact .inr ⟨by grind, fun hp => absurd hp hno⟩
  · exact .inr ⟨by grind, hptr⟩

/-- The replica that handles a heartbeat that is not behind backs what it sent before. -/
theorem HeartbeatBacked.heartbeat {m T : Int32} (hb : HeartbeatBacked tr s m T)
    (hlast : lastHeartbeat (t :: tr) m = some args.term)
    (hterm : (s'.modules m).currentTerm = args.term) (hle : (s.modules m).currentTerm ≤ args.term)
    (hlead : (s.modules m).state = .leader → (s.modules m).currentTerm < args.term) :
    HeartbeatBacked (t :: tr) s' m T := by
  obtain ⟨hT, hstate⟩ := hb
  have hlt : T < args.term := by
    rcases hstate with hl | ⟨hlt, -⟩
    · have := hlead hl
      grind
    · grind
  rw [HeartbeatBacked, hterm]
  exact ⟨by grind, .inr ⟨hlt, fun _ => ⟨_, hlast, hlt⟩⟩⟩

/-- The invariant: every pointer and every heartbeat in flight is backed. -/
structure PointersBacked (R : Replicas) (tr : List (Machine.Step Cluster Event)) (s : Cluster) :
    Prop where
  unset : ∀ m ∈ R.ids, lastHeartbeat tr m = none → (s.modules m).currentLeaderID = 0
  heard : ∀ m ∈ R.ids, ∀ T, lastHeartbeat tr m = some T →
    T ≤ (s.modules m).currentTerm ∧ HeartbeatBacked tr s (s.modules m).currentLeaderID T
  sent : ∀ src dst args, Call.appendEntries src dst args ∈ s.inFlight →
    HeartbeatBacked tr s src args.term

theorem pointersBacked_step (hrun : (protocol R).Run tr s) (h : step R s e = some s')
    (hG : ¬ Misleads s e) (hI : PointersBacked R tr s) :
    PointersBacked R (⟨s, e, s'⟩ :: tr) s' := by
  have hw := wellFormed_of_run hrun
  -- once the old records are still backed, only new heartbeats and the new pointer are left
  have hsent : (∀ j T, HeartbeatBacked tr s j T → HeartbeatBacked (⟨s, e, s'⟩ :: tr) s' j T) →
      ∀ src dst args, Call.appendEntries src dst args ∈ s'.inFlight →
        HeartbeatBacked (⟨s, e, s'⟩ :: tr) s' src args.term := by
    intro hkeep src dst args hc
    rcases step_heartbeat hw h hc with hc | ⟨hsame, -, hl, hT⟩
    · exact hkeep _ _ (hI.sent src dst args hc)
    · exact ⟨by simpa [hsame] using Int32.le_of_eq hT, .inl (by simpa [hsame] using hl)⟩
  rcases step_advances tr h hG with
    ⟨src, m, args, rfl, hc, hframe, hm, hle, hlead⟩ | ⟨hlast, hadv⟩
  · obtain ⟨hsrc, hdst⟩ := hw.calls _ hc
    have hmem : m ∈ R.ids := List.mem_of_mem_erase hdst
    have hne : src ≠ m := fun heq => R.nodup.not_mem_erase (heq ▸ hdst)
    obtain ⟨hterm, hptr, -⟩ := appendEntries_of_le (alive_of_run hrun m hmem) hle
    rw [← hm] at hterm hptr
    have hself : lastHeartbeat (⟨s, .deliver (.appendEntries src m args), s'⟩ :: tr) m =
        some args.term := if_pos rfl
    have hother : ∀ x ≠ m, lastHeartbeat (⟨s, .deliver (.appendEntries src m args), s'⟩ :: tr) x =
        lastHeartbeat tr x := fun x hx => if_neg hx.symm
    have hkeep : ∀ j T, HeartbeatBacked tr s j T →
        HeartbeatBacked (⟨s, .deliver (.appendEntries src m args), s'⟩ :: tr) s' j T := by
      intro j T hb
      by_cases hj : j = m
      · subst hj
        exact hb.heartbeat hself hterm hle hlead
      · exact hb.advance (by rw [hframe j hj]; exact advances_refl _) (hother j hj)
    refine ⟨fun x hx hnone => ?_, fun x hx T hT => ?_, hsent hkeep⟩
    · by_cases hxm : x = m
      · subst hxm
        simp [hself] at hnone
      · rw [hframe x hxm]
        exact hI.unset x hx (hother x hxm ▸ hnone)
    · by_cases hxm : x = m
      · subst hxm
        obtain rfl := Option.some.inj (hself.symm.trans hT)
        have hnamed : args.leaderID = src := hw.named _ hc
        rw [hterm, hptr, hnamed]
        exact ⟨Int32.le_refl _, hkeep _ _ (hI.sent _ _ _ hc)⟩
      · rw [hother x hxm] at hT
        rw [hframe x hxm]
        exact ⟨(hI.heard x hx T hT).1, hkeep _ _ (hI.heard x hx T hT).2⟩
  · have hkeep : ∀ j T, HeartbeatBacked tr s j T → HeartbeatBacked (⟨s, e, s'⟩ :: tr) s' j T :=
      fun j T hb => hb.advance (hadv j) (hlast j)
    refine ⟨fun x hx hnone => ?_, fun x hx T hT => ?_, hsent hkeep⟩
    · rw [(hadv x).pointer]
      exact hI.unset x hx (hlast x ▸ hnone)
    · rw [hlast x] at hT
      rw [(hadv x).pointer]
      obtain ⟨hle, hb⟩ := hI.heard x hx T hT
      exact ⟨Int32.le_trans hle (hadv x).term, hkeep _ _ hb⟩

theorem pointersBacked_of_run (h : (protocol R).Run tr s)
    (hG : ∀ t ∈ tr, ¬ Misleads t.src t.event) : PointersBacked R tr s := by
  refine h.invariant (I := PointersBacked R) (G := fun t => ¬ Misleads t.src t.event) ?_ ?_ hG
  · rintro s ⟨hflight, hfresh⟩
    refine ⟨fun m hm _ => ?_, fun m hm T hT => ?_, fun src dst args hc => ?_⟩
    · obtain ⟨p, -, hp⟩ := hfresh m hm
      rw [hp]
      rfl
    · cases hT
    · simp [hflight] at hc
  · intro tr s e s' hrun hI hG hn
    exact pointersBacked_step hrun hn hG hI

/-! ## Chains of forwards -/

theorem Forwards.pointer (h : Forwards C s m j) :
    (s.modules m).currentLeaderID = j ∧ j ∈ C.clients m := by
  obtain ⟨-, hj⟩ := h
  simp only [ConsensusModule.getLeader, Option.ite_none_right_eq_some, Option.some.injEq] at hj
  exact ⟨hj.2, hj.2 ▸ hj.1⟩

theorem Forwards.mem (h : Forwards C s m j) (hm : m ∈ R.ids) : j ∈ R.ids.erase m :=
  C.peer m hm j h.pointer.2

theorem ends_or_forwards (C : PeerClients R) (s : Cluster) (m : Int32) :
    Ends C s m ∨ ∃ j, Forwards C s m j := by
  cases hl : (s.modules m).isLeader with
  | true => exact .inl (.inl hl)
  | false =>
    cases hg : (s.modules m).getLeader (C.clients m) with
    | none => exact .inl (.inr hg)
    | some j => exact .inr ⟨j, hl, hg⟩

/-- The term of a heartbeat as a number; no heartbeat is below every heartbeat. -/
def rank : Option Int32 → ℕ
  | none => 0
  | some T => (T.toInt + 2 ^ 31 + 1).toNat

theorem rank_lt (T : Option Int32) : rank T < 2 ^ 32 + 1 := by
  cases T with
  | none => simp [rank]
  | some T =>
    have := T.toInt_lt
    simp only [rank]
    omega

theorem rank_lt_rank {T T' : Int32} (h : T < T') : rank (some T) < rank (some T') := by
  have hlt := Int32.lt_iff_toInt_lt.1 h
  have := T.le_toInt
  simp only [rank]
  omega

/-- **The term rises along two forwards.** -/
theorem rank_lt_of_forwards (hw : WellFormed R s) (hI : PointersBacked R tr s) (hm : m ∈ R.ids)
    (hmj : Forwards C s m j) (hjk : Forwards C s j k) :
    rank (lastHeartbeat tr m) < rank (lastHeartbeat tr j) := by
  have hj : j ∈ R.ids := List.mem_of_mem_erase (hmj.mem hm)
  have hpeer : (s.modules j).currentLeaderID ∈ (s.modules j).peerIds := by
    rw [hjk.pointer.1]
    exact (hw.peers j hj).mem_iff.2 (hjk.mem hj)
  have hno : (s.modules j).state ≠ .leader := by
    intro hl
    have := hjk.1
    simp [ConsensusModule.isLeader, hl] at this
  cases hT : lastHeartbeat tr m with
  | some T =>
    obtain ⟨-, hl | ⟨-, hptr⟩⟩ := hmj.pointer.1 ▸ (hI.heard m hm T hT).2
    · exact absurd hl hno
    · obtain ⟨T', hT', hlt⟩ := hptr hpeer
      rw [hT']
      exact rank_lt_rank hlt
  | none =>
    -- `m` still points to the initial 0, and a replica 0 that does so too has no client for itself
    cases hT' : lastHeartbeat tr j with
    | some T' =>
      have := T'.le_toInt
      simp only [rank]
      omega
    | none =>
      have hzero : j = 0 := hmj.pointer.1.symm.trans (hI.unset m hm hT)
      have hself : k = 0 := hjk.pointer.1.symm.trans (hI.unset j hj hT')
      have hk := hjk.mem hj
      rw [hzero, hself] at hk
      exact absurd hk R.nodup.not_mem_erase

/-- A chain of forwards stays among the replicas, and the term rises up to one that forwards. -/
theorem rank_lt_of_transGen (hw : WellFormed R s) (hI : PointersBacked R tr s) (hm : m ∈ R.ids)
    (h : TransGen (Forwards C s) m j) :
    j ∈ R.ids ∧ ∀ k, Forwards C s j k → rank (lastHeartbeat tr m) < rank (lastHeartbeat tr j) := by
  induction h with
  | single hmj =>
    exact ⟨List.mem_of_mem_erase (hmj.mem hm), fun k hjk => rank_lt_of_forwards hw hI hm hmj hjk⟩
  | tail _ hij ih =>
    refine ⟨List.mem_of_mem_erase (hij.mem ih.1), fun k hjk => ?_⟩
    exact (ih.2 _ hij).trans (rank_lt_of_forwards hw hI ih.1 hij hjk)

/-- A chain of forwards ends: the terms that are left above the replica's bound its length. -/
theorem exists_ends (hw : WellFormed R s) (hI : PointersBacked R tr s) (n : ℕ) :
    ∀ m ∈ R.ids, 2 ^ 32 + 1 - rank (lastHeartbeat tr m) ≤ n →
      ∃ j ∈ R.ids, ReflTransGen (Forwards C s) m j ∧ Ends C s j := by
  induction n with
  | zero =>
    intro m hm hn
    have := rank_lt (lastHeartbeat tr m)
    omega
  | succ n ih =>
    intro m hm hn
    rcases ends_or_forwards C s m with hend | ⟨j, hmj⟩
    · exact ⟨m, hm, .refl, hend⟩
    have hj : j ∈ R.ids := List.mem_of_mem_erase (hmj.mem hm)
    rcases ends_or_forwards C s j with hend | ⟨k, hjk⟩
    · exact ⟨j, hj, .single hmj, hend⟩
    have hlt := rank_lt_of_forwards hw hI hm hmj hjk
    obtain ⟨x, hx, hchain, hend⟩ := ih j hj (by omega)
    exact ⟨x, hx, .head hmj hchain, hend⟩

/-- **No forwarding loop.** In every run in which no step misleads, and whichever peers the replicas
are connected to, a call at any replica is forwarded finitely often, until it reaches a leader or a
replica whose `GetLeader` returns nil; no chain of forwards returns to where it started. -/
theorem forwarding_ends (C : PeerClients R) (h : (protocol R).Run tr s)
    (hG : ∀ t ∈ tr, ¬ Misleads t.src t.event) :
    (∀ m ∈ R.ids, ∃ j ∈ R.ids, ReflTransGen (Forwards C s) m j ∧ Ends C s j) ∧
      ∀ m ∈ R.ids, ¬ TransGen (Forwards C s) m m := by
  have hw := wellFormed_of_run h
  have hI := pointersBacked_of_run h hG
  refine ⟨fun m hm => exists_ends hw hI _ m hm le_rfl, fun m hm hcycle => ?_⟩
  obtain ⟨j, hmj, -⟩ := TransGen.head'_iff.1 hcycle
  exact lt_irrefl _ ((rank_lt_of_transGen hw hI hm hcycle).2 j hmj)

/-- Every replica is connected to every other. -/
def fullMesh (R : Replicas) : PeerClients R where
  clients m := R.ids.erase m
  peer _ _ _ hj := hj

/-- Replica 1 leads term 1 and replica 2 hears of it; then replica 2 leads term 2, and its heartbeat
deposes replica 1. -/
def twoLeaders : List Event :=
  timeout 1 ++ [.deliver (.requestVote 1 0 2 ⟨1, 1⟩), .deliver (.requestVoteReply 1 0 2 ⟨1, true⟩),
    .sendHeartbeats 1, .deliver (.appendEntries 1 2 ⟨1, 1⟩)] ++
  timeout 2 ++ [.deliver (.requestVote 2 0 3 ⟨2, 2⟩), .deliver (.requestVoteReply 2 0 3 ⟨2, true⟩),
    .sendHeartbeats 2, .deliver (.appendEntries 2 1 ⟨2, 2⟩)]

/-- After both elections replica 1 forwards to replica 2, which leads. -/
theorem forwarding_ends_twoLeaders :
    ∃ tr s, (protocol threeReplicas).Run tr s ∧ Forwards (fullMesh threeReplicas) s 1 2 ∧
      (∀ t ∈ tr, ¬ Misleads t.src t.event) ∧
      (∀ m ∈ threeReplicas.ids, ∃ j ∈ threeReplicas.ids,
        ReflTransGen (Forwards (fullMesh threeReplicas) s) m j ∧
          Ends (fullMesh threeReplicas) s j) ∧
      ∀ m ∈ threeReplicas.ids, ¬ TransGen (Forwards (fullMesh threeReplicas) s) m m := by
  obtain ⟨tr, s, hrun, hforward, hG⟩ := Machine.exists_run_of_play twoLeaders
    (P := fun tr s => Forwards (fullMesh threeReplicas) s 1 2 ∧
      ∀ t ∈ tr, ¬ Misleads t.src t.event) threeFresh_init (by decide +kernel)
  exact ⟨tr, s, hrun, hforward, hG, forwarding_ends (fullMesh threeReplicas) hrun hG⟩

/-- When a vote request of replica 3 then deposes replica 2, replicas 1 and 2 forward to each
other. -/
theorem not_forwarding_ends : ¬ ∀ (R : Replicas) (C : PeerClients R)
    (tr : List (Machine.Step Cluster Event)) (s : Cluster), (protocol R).Run tr s →
      (∀ m ∈ R.ids, ∃ j ∈ R.ids, ReflTransGen (Forwards C s) m j ∧ Ends C s j) ∧
        ∀ m ∈ R.ids, ¬ TransGen (Forwards C s) m m := by
  intro hall
  obtain ⟨tr, s, hrun, h12, h21⟩ := Machine.exists_run_of_play
    (twoLeaders ++ timeout 3 ++ [.deliver (.requestVote 3 0 2 ⟨3, 3⟩)])
    (P := fun _ s => Forwards (fullMesh threeReplicas) s 1 2 ∧
      Forwards (fullMesh threeReplicas) s 2 1) threeFresh_init (by decide +kernel)
  exact (hall _ _ tr s hrun).2 1 (by decide) (.tail (.single h12) h21)

/-! ## The last leader heard of -/

/-- The heartbeats that `m` has received. -/
def received (m : Int32) (tr : List (Machine.Step Cluster Event)) : List AppendEntriesArgs :=
  tr.filterMap fun t => match t.event with
    | .deliver (.appendEntries _ dst args) => if dst = m then some args else none
    | _ => none

/-- The steps that distract a replica: it receives a heartbeat of an earlier term from another
leader than the one it knows, or its term goes back. -/
def Distracts (s : Cluster) : Event → Prop
  | .deliver (.appendEntries _ dst args) =>
    args.term < (s.modules dst).currentTerm ∧ args.leaderID ≠ (s.modules dst).currentLeaderID
  | e => TermGoesBack s e

instance (s : Cluster) : (e : Event) → Decidable (Distracts s e)
  | .timerStart .. | .sendHeartbeats .. | .lose .. => inferInstanceAs (Decidable False)
  | .timerTick .. => inferInstanceAs (Decidable (_ ∧ _))
  | .deliver (.requestVote ..) => inferInstanceAs (Decidable False)
  | .deliver (.appendEntries ..) => inferInstanceAs (Decidable (_ ∧ _))
  | .deliver (.requestVoteReply ..) => inferInstanceAs (Decidable (_ ∧ _))
  | .deliver (.appendEntriesReply ..) => inferInstanceAs (Decidable (_ ∧ _))

theorem not_termGoesBack_of_not_distracts (h : ¬ Distracts s e) : ¬ TermGoesBack s e := by
  unfold Distracts at h
  split at h
  · exact id
  · exact h

theorem step_appendEntries {src : Int32}
    (h : step R s (.deliver (.appendEntries src m args)) = some s') :
    s'.modules m = ((s.modules m).appendEntries args).1 := by
  obtain ⟨_, _, _, hruns, rfl, -⟩ := step_runs h
  cases hruns
  simp

theorem currentLeaderID_of_step (h : step R s e = some s')
    (hno : ∀ src args, e ≠ .deliver (.appendEntries src m args)) :
    (s'.modules m).currentLeaderID = (s.modules m).currentLeaderID := by
  refine forall_modules_of_step h (P := fun x cm => (∀ src args,
      e ≠ .deliver (.appendEntries src x args)) →
      cm.currentLeaderID = (s.modules x).currentLeaderID)
    (fun x _ => rfl) (fun x cm' sent hruns hno => ?_) m hno
  cases hruns with
  | @requestVote _ _ _ args =>
    rcases (s.modules x).requestVote_cases args with ⟨cm', hrv, rfl, -⟩ | ⟨hcm, -⟩
    · rw [hrv]
      unfold ConsensusModule.catchUp
      split <;> rfl
    · rw [hcm]
  | voteReply =>
    unfold ConsensusModule.handleVoteReply
    split_ifs <;> rfl
  | appendEntries => exact absurd rfl (hno _ _)
  | heartbeatReply =>
    unfold ConsensusModule.handleHeartbeatReply
    split <;> rfl
  | _ => rfl

/-- The heartbeats are of terms up to the replica's own, and the leader it knows is that of one of
the latest. -/
structure KnowsLatest (tr : List (Machine.Step Cluster Event)) (s : Cluster) (m : Int32) :
    Prop where
  le : ∀ args ∈ received m tr, args.term ≤ (s.modules m).currentTerm
  latest : received m tr ≠ [] → ∃ last ∈ received m tr,
    (s.modules m).currentLeaderID = last.leaderID ∧ ∀ args ∈ received m tr, args.term ≤ last.term

/-- A heartbeat that does not distract: its leader is known afterwards, and if it is behind, nothing
changes. -/
theorem KnowsLatest.heartbeat (hI : KnowsLatest tr s m) (hd : (s.modules m).state ≠ .dead)
    (hG : ¬ (args.term < (s.modules m).currentTerm ∧ args.leaderID ≠ (s.modules m).currentLeaderID))
    (hm : s'.modules m = ((s.modules m).appendEntries args).1)
    (hreceived : received m (t :: tr) = args :: received m tr) : KnowsLatest (t :: tr) s' m := by
  by_cases hlt : args.term < (s.modules m).currentTerm
  · have hleader : args.leaderID = (s.modules m).currentLeaderID := by
      by_contra hne
      exact hG ⟨hlt, hne⟩
    have hsame : s'.modules m = s.modules m := by
      rw [hm, appendEntries_of_lt hd hlt, hleader]
    refine ⟨?_, fun _ => ?_⟩
    · rw [hreceived, hsame]
      simpa using ⟨Int32.le_of_lt hlt, hI.le⟩
    · -- the latest is the one that was, or this one, and both name the same leader
      by_cases hnew : ∀ a ∈ received m tr, a.term ≤ args.term
      · exact ⟨args, by simp [hreceived], by rw [hsame, hleader], by simpa [hreceived] using hnew⟩
      · obtain ⟨a, ha, hlarger⟩ : ∃ a ∈ received m tr, ¬ a.term ≤ args.term := by simpa using hnew
        obtain ⟨last, hlast, hptr, hmax⟩ := hI.latest (List.ne_nil_of_mem ha)
        have hargs : args.term ≤ last.term := by grind
        exact ⟨last, by simp [hreceived, hlast], by rw [hsame, hptr],
          by simpa [hreceived] using ⟨hargs, hmax⟩⟩
  · have hle : (s.modules m).currentTerm ≤ args.term := by grind
    obtain ⟨hterm, hptr, -⟩ := appendEntries_of_le hd hle
    have hall : ∀ a ∈ received m (t :: tr), a.term ≤ args.term := by
      rw [hreceived]
      simpa using fun a ha => Int32.le_trans (hI.le a ha) (by grind)
    exact ⟨by rwa [hm, hterm], fun _ => ⟨args, by simp [hreceived], by rw [hm, hptr], hall⟩⟩

theorem knowsLatest_of_run (h : (protocol R).Run tr s)
    (hG : ∀ t ∈ tr, ¬ Distracts t.src t.event) : ∀ m ∈ R.ids, KnowsLatest tr s m := by
  refine h.invariant (I := fun tr s => ∀ m ∈ R.ids, KnowsLatest tr s m)
    (G := fun t => ¬ Distracts t.src t.event) ?_ ?_ hG
  · exact fun s _ m _ => ⟨by simp [received], by simp [received]⟩
  · intro tr s e s' hrun hI hG hn m hm
    have hle := term_le_of_step hn (not_termGoesBack_of_not_distracts hG) m
    by_cases hbeat : ∃ src args, e = .deliver (.appendEntries src m args)
    · obtain ⟨src, args, rfl⟩ := hbeat
      exact (hI m hm).heartbeat (alive_of_run hrun m hm) hG (step_appendEntries (R := R) hn)
        (by simp [received])
    · have hsame : received m (⟨s, e, s'⟩ :: tr) = received m tr := by
        refine List.filterMap_cons_none ?_
        cases e with
        | deliver c =>
          cases c with
          | appendEntries src dst args =>
            have hne : dst ≠ m := fun heq => hbeat ⟨src, args, heq ▸ rfl⟩
            simp [hne]
          | _ => rfl
        | _ => rfl
      have hptr := currentLeaderID_of_step hn fun src args he => hbeat ⟨src, args, he⟩
      refine ⟨fun args ha => ?_, fun hne => ?_⟩
      · exact Int32.le_trans ((hI m hm).le args (hsame ▸ ha)) hle
      · rw [hsame] at hne ⊢
        rw [hptr]
        exact (hI m hm).latest hne

/-- **The leader that a replica knows is that of the latest heartbeat**, in every run without a step
that distracts it; and a heartbeat that is refused changes nothing. -/
theorem knownLeader_latest (h : (protocol R).Run tr s) (hG : ∀ t ∈ tr, ¬ Distracts t.src t.event)
    (hm : m ∈ R.ids) :
    (received m tr ≠ [] → ∃ last ∈ received m tr,
      (s.modules m).currentLeaderID = last.leaderID ∧
        ∀ args ∈ received m tr, args.term ≤ last.term) ∧
    ∀ t ∈ tr, ∀ src args reply, t.event = .deliver (.appendEntries src m args) →
      ((t.src.modules m).appendEntries args).2 = some reply → reply.success = false →
        t.dst.modules m = t.src.modules m := by
  refine ⟨(knowsLatest_of_run h hG m hm).latest, ?_⟩
  intro t ht src args reply he hreply hfalse
  obtain ⟨before, -, hbefore⟩ := h.src ht
  have hd := alive_of_run hbefore m hm
  have hnext := h.next_of_mem ht
  have hno := hG t ht
  rw [he] at hnext hno
  have hlt : args.term < (t.src.modules m).currentTerm := by
    by_contra hle
    rw [(appendEntries_of_le hd (by grind)).2.2] at hreply
    cases hreply
    cases hfalse
  have hleader : args.leaderID = (t.src.modules m).currentLeaderID := by
    by_contra hne
    exact hno ⟨hlt, hne⟩
  rw [step_appendEntries (R := R) hnext, appendEntries_of_lt hd hlt, hleader]

/-- In the run with two leaders no step distracts: replica 1 knows the leader of term 2. -/
theorem knownLeader_twoLeaders : ∃ tr s, (protocol threeReplicas).Run tr s ∧
    received 1 tr = [⟨2, 2⟩] ∧ ∃ last ∈ received 1 tr,
      (s.modules 1).currentLeaderID = last.leaderID ∧ ∀ args ∈ received 1 tr, args.term ≤
        last.term := by
  obtain ⟨tr, s, hrun, hreceived, hG⟩ := Machine.exists_run_of_play twoLeaders
    (P := fun tr _ => received 1 tr = [⟨2, 2⟩] ∧ ∀ t ∈ tr, ¬ Distracts t.src t.event)
    threeFresh_init (by decide +kernel)
  exact ⟨tr, s, hrun, hreceived, (knownLeader_latest hrun hG (by decide)).1 (by simp [hreceived])⟩

/-- Replica 3 hears of the leader of term 2, and then gets a heartbeat that the leader of term 1
sent before: it refuses the heartbeat, and takes its sender for the leader. -/
theorem exists_distracted : ∃ tr s, (protocol threeReplicas).Run tr s ∧
    received 3 tr = [⟨1, 1⟩, ⟨2, 2⟩] ∧ (s.modules 3).currentLeaderID = 1 ∧
    ∃ t ∈ tr, t.event = .deliver (.appendEntries 1 3 ⟨1, 1⟩) ∧
      ((t.src.modules 3).appendEntries ⟨1, 1⟩).2 = some ⟨2, false⟩ ∧
      (t.src.modules 3).currentLeaderID = 2 :=
  Machine.exists_run_of_play (twoLeaders ++
    [.deliver (.appendEntries 2 3 ⟨2, 2⟩), .deliver (.appendEntries 1 3 ⟨1, 1⟩)])
    threeFresh_init (by decide +kernel)

end Dirigent.LeaderElection
