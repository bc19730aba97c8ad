import Kici.Cluster.RaftCluster
import Kici.Foundation.Election

/-!
# The election of a cluster

What a node holds and what it logs are, for the votes, a voter and a history of
an election (`Kici.Election`): `Cluster.election` reads the election off a cluster.

The handlers of a node then are sequences of moves of that election
(`Handled.Allowed`): which moves they are, and so which rules they need, is said
once for each handler. Results about votes and leaders follow from those about
elections.

* `RaftNode.stepDown` advances the term; called in the node's own term, it deposes
  the node;
* `RaftNode.startElection` campaigns, and then wins, or seizes the leadership by
  the safety valve;
* `RaftNode.castVote` grants a vote;
* all else the handlers do changes neither votes nor leaders.
-/

namespace Kici

open List Election Handled

variable {ι : Type*}

/-- What a log line of `i` says of the election. -/
def LogEvent.event? (i : ι) : LogEvent ι → Option (Event ι)
  | startingElection term => some (.voted i term i)
  | voteGranted candidateId term => some (.voted i term candidateId)
  | becameLeader term => some (.won i term)
  | forcingSelfElection term => some (.seized term)
  | _ => none

/-- What a node holds in the election. -/
def RaftNode.voter (n : RaftNode ι) : Voter ι := ⟨n.currentTerm, n.votedFor, n.role ≠ .follower⟩

/-- The election of a cluster, read off its nodes and their log. -/
def Cluster.election (c : Cluster ι) : Election.State ι where
  voter i := (c.nodes i).voter
  history := c.log.filterMap fun l => l.2.event? l.1

/-- What the effects of `i` say of the election. -/
def Handled.events (h : Handled ι) (i : ι) : List (Event ι) :=
  (h.effects.filterMap (RaftEffect.logged? i)).filterMap fun l => l.2.event? l.1

@[simp] theorem Handled.events_andThen (h : Handled ι) (f : RaftNode ι → Handled ι) (i : ι) :
    (h.andThen f).events i = h.events i ++ (f h.node).events i := by
  simp [events, andThen]

@[simp] theorem Handled.node_andThen (h : Handled ι) (f : RaftNode ι → Handled ι) :
    (h.andThen f).node = (f h.node).node := rfl

theorem Handled.andThen_assoc (h : Handled ι) (f g : RaftNode ι → Handled ι) :
    (h.andThen f).andThen g = h.andThen fun n => (f n).andThen g := by
  simp [andThen]

theorem Cluster.gaveVote_iff (c : Cluster ι) (i : ι) (t : ℕ) (k : ι) :
    c.GaveVote i t k ↔ .voted i t k ∈ c.election.history := by
  constructor
  · rintro (⟨h, rfl⟩ | h)
    · exact mem_filterMap.2 ⟨_, h, rfl⟩
    · exact mem_filterMap.2 ⟨_, h, rfl⟩
  · intro h
    obtain ⟨⟨j, e⟩, hmem, he⟩ := mem_filterMap.1 h
    cases e <;> cases he
    · exact .inl ⟨hmem, rfl⟩
    · exact .inr hmem

theorem Cluster.forcedIn_iff (c : Cluster ι) (t : ℕ) :
    c.ForcedIn t ↔ .seized t ∈ c.election.history := by
  constructor
  · rintro ⟨i, h⟩
    exact mem_filterMap.2 ⟨_, h, rfl⟩
  · intro h
    obtain ⟨⟨j, e⟩, hmem, he⟩ := mem_filterMap.1 h
    cases e <;> cases he
    exact ⟨j, hmem⟩

variable [DecidableEq ι]

theorem Cluster.election_perform (c : Cluster ι) (i : ι) (h : Handled ι) :
    (c.perform i h).election = c.election.move i h.node.voter (h.events i) := by
  simp only [Cluster.election, Cluster.perform, State.move, filterMap_append, events,
    State.mk.injEq, and_true]
  funext j
  by_cases hj : j = i
  · subst hj
    simp
  · simp [hj]

/-! ## Handlers as moves -/

/-- For the votes, `h` amounts to moves that the rules allow `i` in `s`. -/
def Handled.Allowed (R : Rules ι) (s : State ι) (i : ι) (h : Handled ι) : Prop :=
  R.Steps s (s.move i h.node.voter (h.events i))

variable {f : RaftNode ι → Handled ι}

namespace Handled.Allowed

variable {R : Rules ι} {s : State ι} {i : ι} {h : Handled ι}

/-- What changes neither the voter nor the history needs no moves. -/
theorem neutral (hv : h.node.voter = s.voter i) (he : h.events i = []) : h.Allowed R s i := by
  rw [Allowed, hv, he, State.move_self]

theorem of_move (hm : R.Move s i h.node.voter (h.events i)) : h.Allowed R s i :=
  .single hm.step

theorem andThen (hh : h.Allowed R s i)
    (hf : (f h.node).Allowed R (s.move i h.node.voter (h.events i)) i) :
    (h.andThen f).Allowed R s i := by
  rw [Allowed, State.move_move] at hf
  rw [Allowed, events_andThen, node_andThen]
  exact hh.trans hf

/-- What a handler does first may be left out where it is neutral. -/
theorem andThen_of_neutral (hv : h.node.voter = s.voter i)
    (he : h.events i = []) (hf : (f h.node).Allowed R s i) : (h.andThen f).Allowed R s i := by
  refine (neutral hv he).andThen ?_
  rwa [hv, he, State.move_self]

end Handled.Allowed

variable {msg : RaftVoteRequest ι}

namespace RaftNode

variable {R : Rules ι} {s : State ι} {i : ι} {n : RaftNode ι} {connected : ℕ}

omit [DecidableEq ι] in
@[simp] theorem voter_resetElectionTimer (n : RaftNode ι) :
    n.resetElectionTimer.voter = n.voter := rfl

theorem allowed_stepDown {newTerm : ℕ} {newLeaderId : Option ι} (hn : n.voter = s.voter i)
    (h : n.currentTerm < newTerm ∨ newTerm = n.currentTerm ∧ R.mayDepose ∧ n.role ≠ .follower ∧
      ∃ l ≠ i, .won l n.currentTerm ∈ s.history) :
    (n.stepDown newTerm newLeaderId).Allowed R s i := by
  have hterm : n.currentTerm = (s.voter i).term := congrArg Voter.term hn
  rw [stepDown]
  split
  · exact .neutral hn rfl
  · -- Neither of the two lines it may log records a vote or a leader.
    have he : ∀ p, events ⟨{ n with
        currentTerm := newTerm, votedFor := none, role := .follower,
        consecutiveUnansweredElections := 0, leaderId := newLeaderId.or n.leaderId,
        leaderHeartbeatTimer := false, electionTimer := true }, .save p ::
        if n.role = .leader then [.log (.lostLeadership newTerm newLeaderId), .onLoseLeadership]
        else [.log (.steppedDown newTerm newLeaderId)]⟩ i = [] := by
      intro p
      split <;> rfl
    refine .of_move ?_
    rw [he]
    rcases h with hlt | ⟨rfl, hd, hrole, l, hl, hwon⟩
    · rw [hterm] at hlt
      exact .advance hlt
    · have hstand : (s.voter i).standing := by
        rw [← hn]
        simpa [voter] using hrole
      rw [hterm] at hwon
      have := Rules.Move.depose hd hstand hl hwon
      rwa [← hterm] at this

/-- Becoming the leader is winning, with a quorum's votes. -/
theorem allowed_becomeLeader {Q : Finset ι} (hn : n.voter = s.voter i)
    (hrole : n.role = .candidate) (hQ : Q ∈ R.quorum)
    (hv : ∀ v ∈ Q, .voted v n.currentTerm i ∈ s.history) : n.becomeLeader.Allowed R s i := by
  rw [becomeLeader]
  split
  · exact .neutral hn rfl
  · have hterm : n.currentTerm = (s.voter i).term := congrArg Voter.term hn
    have hvoter : n.voter = ⟨n.currentTerm, n.votedFor, true⟩ := by simp [voter, hrole]
    have hstand : (s.voter i).standing := by rw [← hn, hvoter]
    rw [hterm] at hv
    have hm := Rules.Move.win hstand hQ hv
    rw [← hterm, ← hn, hvoter] at hm
    exact .of_move hm

/-- Becoming the leader by the safety valve is seizing the leadership. -/
theorem allowed_forceLeader (hn : n.voter = s.voter i) (hstop : ¬n.stopped)
    (hrole : n.role = .candidate) :
    (andThen ⟨{ n with consecutiveUnansweredElections := 0 },
      [.log (.forcingSelfElection n.currentTerm)]⟩ becomeLeader).Allowed R s i := by
  have hterm : n.currentTerm = (s.voter i).term := congrArg Voter.term hn
  have hvoter : n.voter = ⟨n.currentTerm, n.votedFor, true⟩ := by simp [voter, hrole]
  have hstand : (s.voter i).standing := by rw [← hn, hvoter]
  have hm := Rules.Move.seize (R := R) hstand
  rw [← hterm, ← hn, hvoter] at hm
  simp only [andThen, becomeLeader, if_neg hstop]
  exact .of_move hm

theorem allowed_checkMajority (hn : n.voter = s.voter i)
    (h : n.role = .candidate → (connected + 1) / 2 + 1 ≤ n.votesReceived.card →
      ∃ Q ∈ R.quorum, ∀ v ∈ Q, .voted v n.currentTerm i ∈ s.history) :
    (n.checkMajority connected).Allowed R s i := by
  rw [checkMajority]
  split
  · exact .neutral hn rfl
  · next hrole =>
    rw [not_not] at hrole
    simp only
    split
    · next hmaj =>
      obtain ⟨Q, hQ, hv⟩ := h hrole hmaj
      exact allowed_becomeLeader hn hrole hQ hv
    · exact .neutral hn rfl

/-- A new candidacy is a campaign. -/
theorem allowed_nextCandidacy {es : List (RaftEffect ι)} (hn : n.voter = s.voter i)
    (hid : n.instanceId = i) (hi : i ∈ R.mayVote)
    (hes : events ⟨n.nextCandidacy, es⟩ i = [.voted i (n.currentTerm + 1) i]) :
    (⟨n.nextCandidacy, es⟩ : Handled ι).Allowed R s i := by
  have hterm : n.currentTerm = (s.voter i).term := congrArg Voter.term hn
  have hvoter : n.nextCandidacy.voter = ⟨n.currentTerm + 1, some i, true⟩ := by
    simp [voter, nextCandidacy, hid]
  refine .of_move ?_
  rw [hes, hvoter, hterm]
  exact .campaign hi

/-- An election campaigns, and may then win or seize the leadership. -/
theorem allowed_startElection {connected now : ℕ} (hn : n.voter = s.voter i)
    (hid : n.instanceId = i) (hi : ¬n.stopped → i ∈ R.mayVote)
    (hQ : (connected + 1) / 2 + 1 ≤ 1 → {i} ∈ R.quorum) :
    (n.startElection connected now).Allowed R s i := by
  rw [startElection]
  split
  · exact .neutral hn rfl
  next hstop =>
  -- The campaign comes first, whatever follows.
  set opened : Handled ι := ⟨n.nextCandidacy,
    [.log (.startingElection n.nextCandidacy.currentTerm), .save n.nextCandidacy.persistent]⟩
  have hopen : opened.Allowed R s i := allowed_nextCandidacy hn hid (hi hstop) rfl
  set s' := s.move i opened.node.voter (opened.events i) with hs'
  have hvoter : n.nextCandidacy.voter = s'.voter i := by simp [hs', opened]
  have hself : ∀ v ∈ ({i} : Finset ι), Event.voted v (n.currentTerm + 1) i ∈ s'.history := by
    intro v hv
    rw [Finset.mem_singleton.1 hv, hs', State.move_history]
    exact mem_append_right _ mem_cons_self
  simp only [andThen_assoc]
  split
  · next hconn =>
    split
    · exact hopen.andThen (.neutral hvoter rfl)
    · -- Dormant mode: the vote of `i` alone elects it.
      refine hopen.andThen (.andThen_of_neutral hvoter rfl ?_)
      exact allowed_becomeLeader hvoter rfl (hQ (by simp [hconn])) hself
  · split
    · -- The safety valve: logging it and becoming the leader is one move.
      exact hopen.andThen (allowed_forceLeader hvoter hstop rfl)
    · refine hopen.andThen (.andThen_of_neutral hvoter rfl (.andThen ?_ ?_))
      · refine allowed_checkMajority hvoter fun _ hmaj => ⟨{i}, hQ ?_, hself⟩
        have hcard : (connected + 1) / 2 + 1 ≤ ({n.instanceId} : Finset ι).card := hmaj
        rwa [Finset.card_singleton] at hcard
      · exact .neutral (by rw [voter_resetElectionTimer, State.move_voter_self]) rfl

/-- A vote on a request of the node's term, or an older one, grants it or does nothing. -/
theorem allowed_castVote (hn : n.voter = s.voter i)
    (hi : i ∈ R.mayVote) (hterm : msg.term ≤ n.currentTerm) :
    (n.castVote msg).Allowed R s i := by
  rw [castVote]
  split
  · next hg =>
    simp only [grantsVote, decide_eq_true_eq] at hg
    have hmsg : msg.term = n.currentTerm := Nat.le_antisymm hterm hg.1
    have hvote : n.votedFor = (s.voter i).vote := congrArg Voter.vote hn
    rw [hvote] at hg
    have hm := Rules.Move.grant hi hg.2
    rw [← hn] at hm
    refine .of_move ?_
    simp only [voter_resetElectionTimer]
    rw [show n.voter.term = msg.term from hmsg.symm] at hm
    exact hm
  · exact .neutral hn rfl

theorem allowed_handleVoteRequest (hn : n.voter = s.voter i)
    (hi : ¬n.stopped → i ∈ R.mayVote) : (n.handleVoteRequest msg).1.Allowed R s i := by
  rw [handleVoteRequest]
  split
  · exact .neutral hn rfl
  next hstop =>
  simp only
  split
  · next hlt =>
    refine (allowed_stepDown hn (.inl hlt)).andThen ?_
    refine allowed_castVote (by simp) (hi hstop) ?_
    simp [stepDown, hstop]
  · next hle => exact .andThen_of_neutral hn rfl (allowed_castVote hn (hi hstop) (Nat.not_lt.1 hle))

/-- A vote counted elects the node once its votes hold a quorum's. -/
theorem allowed_handleVoteResponse {msg : RaftVoteResponse ι} (hn : n.voter = s.voter i)
    (h : n.role = .candidate → msg.term = n.currentTerm → msg.voteGranted →
      (connected + 1) / 2 + 1 ≤ (insert msg.voterId n.votesReceived).card →
      ∃ Q ∈ R.quorum, ∀ v ∈ Q, .voted v n.currentTerm i ∈ s.history) :
    (n.handleVoteResponse msg connected).Allowed R s i := by
  rw [handleVoteResponse]
  split
  · exact .neutral hn rfl
  split
  · next hlt => exact allowed_stepDown hn (.inl hlt)
  split
  · exact .neutral hn rfl
  next hcand =>
  simp only
  split
  · next hgranted =>
    refine .andThen_of_neutral hn rfl (allowed_checkMajority hn fun hrole hmaj => ?_)
    push Not at hcand
    exact h hrole hcand.2 hgranted hmaj
  · exact .neutral hn rfl

/-- A leader's message of the node's own term deposes the node, if it stands. -/
theorem allowed_handleAppendEntries {msg : RaftAppendEntries ι} (hn : n.voter = s.voter i)
    (h : ¬n.stopped → n.role ≠ .follower → msg.term = n.currentTerm →
      R.mayDepose ∧ ∃ l ≠ i, .won l n.currentTerm ∈ s.history) :
    (n.handleAppendEntries msg).Allowed R s i := by
  rw [handleAppendEntries]
  split
  · exact .neutral hn rfl
  next hstop =>
  simp only
  split
  · next hle =>
    split
    · next hdown =>
      refine allowed_stepDown hn ?_
      rcases Nat.lt_or_eq_of_le hle with hlt | heq
      · exact .inl hlt
      · have hrole := hdown.resolve_left (Nat.not_lt.2 (Nat.le_of_eq heq.symm))
        obtain ⟨hd, hwon⟩ := h hstop hrole heq.symm
        exact .inr ⟨heq.symm, hd, hrole, hwon⟩
    · exact .neutral hn rfl
  · exact .neutral hn rfl

theorem allowed_handlePeerLeaving {leaving : ι} {connected now : ℕ} (hn : n.voter = s.voter i)
    (hid : n.instanceId = i) (hi : ¬n.stopped → i ∈ R.mayVote)
    (hQ : (connected + 1) / 2 + 1 ≤ 1 → {i} ∈ R.quorum) :
    (n.handlePeerLeaving leaving connected now).Allowed R s i := by
  rw [handlePeerLeaving]
  split
  · exact .neutral hn rfl
  · exact .andThen_of_neutral hn rfl (allowed_startElection hn hid hi hQ)

theorem allowed_onPeerDisconnected (hn : n.voter = s.voter i) :
    (n.onPeerDisconnected connected).Allowed R s i := by
  rw [onPeerDisconnected]
  split
  · exact .neutral hn rfl
  · exact .neutral hn rfl

theorem allowed_sendHeartbeat (hn : n.voter = s.voter i) : n.sendHeartbeat.Allowed R s i :=
  .neutral hn rfl

/-- To stop is to stand no longer. -/
theorem allowed_stop (hn : n.voter = s.voter i) : n.stop.Allowed R s i := by
  rw [stop]
  split
  · exact .neutral hn rfl
  · have hm := Rules.Move.retire (R := R) (s := s) (i := i)
    rw [← hn] at hm
    refine .of_move ?_
    split <;> exact hm

end RaftNode

end Kici
