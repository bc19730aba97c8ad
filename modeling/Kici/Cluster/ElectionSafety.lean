import Kici.Cluster.RaftElection

/-!
# One leader in each term

In a cluster whose nodes are always fully connected and do not restart, a term has
at most one leader, ever, unless a node took the leadership of that term by the
safety valve, after two elections without an answer (`leader_unique`). That valve
elects without a majority: two nodes whose messages are all lost both become
leaders of their third term (`exists_two_leaders`).

The votes of a cluster follow the rules of an election decided by majorities, in
which leaders and candidates may be deposed (`raftRules`). What ties the nodes and
their messages to that election is recorded step by step: a node that leads has
won its term, a candidate's votes were given (`RaftNode.Backed`), and so were the
votes and leaderships that messages tell of (`Envelope.Truthful`).
-/

namespace Kici

open List Option Election Cluster Fintype RaftEffect RaftNode

variable {ι : Type*}

/-! ## What nodes and messages say of the election -/

/-- What a message says is in the record `H` of the election. -/
def Envelope.Truthful (e : Envelope ι) (H : List (Event ι)) : Prop :=
  match e.msg with
  | .voteRequest msg => e.dst = none ∧ msg.candidateId = e.src
  | .voteResponse msg => msg.voteGranted → ∃ i, e.dst = some i ∧ .voted msg.voterId msg.term i ∈ H
  | .appendEntries msg => e.dst = none ∧ msg.leaderId = e.src ∧ .won e.src msg.term ∈ H

/-- What the node `i` holds is backed by the record `H` of the election. -/
structure RaftNode.Backed (n : RaftNode ι) (i : ι) (H : List (Event ι)) : Prop where
  instanceId : n.instanceId = i
  standing : n.role ≠ .follower → n.votedFor = some i
  leader : n.role = .leader → .won i n.currentTerm ∈ H
  heartbeat : n.leaderHeartbeatTimer → n.role = .leader
  noTimeout : n.role = .leader → n.electionTimer = false
  votes : n.role = .candidate → ∀ v ∈ n.votesReceived, .voted v n.currentTerm i ∈ H

variable {H H' : List (Event ι)} {e : Envelope ι} {i : ι} {n : RaftNode ι}

theorem Envelope.Truthful.mono (he : e.Truthful H) (hH : H ⊆ H') : e.Truthful H' := by
  rw [Envelope.Truthful] at he ⊢
  cases hmsg : e.msg with
  | voteRequest msg =>
    simp only [hmsg] at he
    exact he
  | voteResponse msg =>
    simp only [hmsg] at he
    intro hg
    obtain ⟨d, hd, hv⟩ := he hg
    exact ⟨d, hd, hH hv⟩
  | appendEntries msg =>
    simp only [hmsg] at he
    exact ⟨he.1, he.2.1, hH he.2.2⟩

theorem RaftNode.Backed.mono (hn : n.Backed i H) (hH : H ⊆ H') : n.Backed i H' :=
  { hn with
    leader := fun h => hH (hn.leader h)
    votes := fun h v hv => hH (hn.votes h v hv) }

/-- How many elections went unanswered is of no importance. -/
theorem RaftNode.Backed.unanswered (hn : n.Backed i H) (k : ℕ) :
    { n with consecutiveUnansweredElections := k }.Backed i H := { hn with }

theorem RaftNode.Backed.resetElectionTimer (hn : n.Backed i H) (hrole : n.role ≠ .leader) :
    n.resetElectionTimer.Backed i H :=
  { hn with noTimeout := fun h => absurd h hrole }

/-- Handling leaves what the node holds, and what it sends, backed by the record. -/
structure Handled.Sound (h : Handled ι) (i : ι) (H : List (Event ι)) : Prop where
  node : h.node.Backed i (H ++ h.events i)
  sent : ∀ e ∈ h.effects.filterMap (envelope? i), e.Truthful (H ++ h.events i)

namespace Handled.Sound

variable {h : Handled ι}

/-- Handling that sends and records nothing. -/
theorem quiet (hn : h.node.Backed i H)
    (hsent : h.effects.filterMap (envelope? i) = []) : h.Sound i H :=
  ⟨hn.mono (subset_append_left _ _), by simp [hsent]⟩

theorem andThen {f : RaftNode ι → Handled ι} (hh : h.Sound i H)
    (hf : (f h.node).Sound i (H ++ h.events i)) : (h.andThen f).Sound i H := by
  constructor
  · simpa [append_assoc] using hf.node
  · intro e he
    rw [Handled.events_andThen, ← append_assoc]
    simp only [Handled.andThen, filterMap_append, mem_append] at he
    rcases he with he | he
    · exact (hh.sent e he).mono (subset_append_left _ _)
    · exact hf.sent e he

end Handled.Sound

namespace RaftNode

variable {msg : RaftVoteRequest ι} {connected : ℕ}

theorem sound_stepDown {newTerm : ℕ} {newLeaderId : Option ι} (hn : n.Backed i H) :
    (n.stepDown newTerm newLeaderId).Sound i H := by
  rw [stepDown]
  split
  · exact .quiet hn rfl
  · refine .quiet ⟨hn.instanceId, ?_, ?_, ?_, ?_, ?_⟩ ?_
    · exact fun h => absurd rfl h
    · exact fun h => by cases h
    · exact fun h => by cases h
    · exact fun h => by cases h
    · exact fun h => by cases h
    · split <;> rfl

theorem sound_becomeLeader (hn : n.Backed i H) (hrole : n.role = .candidate) :
    n.becomeLeader.Sound i H := by
  have hstand : n.votedFor = some i := hn.standing (by simp [hrole])
  rw [becomeLeader]
  split
  · exact .quiet hn rfl
  · have hwon : Event.won i n.currentTerm ∈ H ++ [Event.won i n.currentTerm] := by simp
    refine ⟨⟨hn.instanceId, fun _ => hstand, fun _ => hwon, fun _ => rfl, fun _ => rfl, ?_⟩, ?_⟩
    · exact fun h => by cases h
    · intro e he
      obtain rfl : ⟨i, none, .appendEntries ⟨n.currentTerm, n.instanceId⟩⟩ = e := by
        simpa [envelope?] using he
      exact ⟨rfl, hn.instanceId, hwon⟩

theorem sound_checkMajority (hn : n.Backed i H) : (n.checkMajority connected).Sound i H := by
  simp only [checkMajority]
  split
  · exact .quiet hn rfl
  · next hrole =>
    split
    · exact sound_becomeLeader hn (not_not.1 hrole)
    · exact .quiet hn rfl

/-- One vote is no majority once a peer is connected. -/
theorem checkMajority_of_card_le_one (hconn : connected ≠ 0)
    (hvotes : n.votesReceived.card ≤ 1) : n.checkMajority connected = ⟨n, []⟩ := by
  simp only [checkMajority]
  split
  · rfl
  · rw [if_neg (by omega)]

theorem sound_handleAppendEntries {msg : RaftAppendEntries ι} (hn : n.Backed i H) :
    (n.handleAppendEntries msg).Sound i H := by
  rw [handleAppendEntries]
  split
  · exact .quiet hn rfl
  simp only
  split
  · split
    · exact sound_stepDown (hn.unanswered 0)
    · next hrole =>
      push Not at hrole
      refine .quiet ?_ rfl
      have hheard : Backed { n with
          consecutiveUnansweredElections := 0
          leaderId := some msg.leaderId } i H := { hn with }
      exact hheard.resetElectionTimer (by simp [hrole.2])
  · exact .quiet (hn.unanswered 0) rfl

theorem sound_onPeerDisconnected (hn : n.Backed i H) : (n.onPeerDisconnected connected).Sound i H := by
  rw [onPeerDisconnected]
  split
  · exact .quiet hn rfl
  · next hlead =>
    push Not at hlead
    exact .quiet (hn.resetElectionTimer hlead.2.1) rfl

/-- A heartbeat tells of a leadership that is on record. -/
theorem sound_sendHeartbeat (hn : n.Backed i H) (hlead : n.role = .leader) :
    n.sendHeartbeat.Sound i H := by
  refine ⟨hn.mono (subset_append_left _ _), fun e he => ?_⟩
  obtain rfl : e = ⟨i, none, .appendEntries ⟨n.currentTerm, n.instanceId⟩⟩ := by
    simpa [envelope?, sendHeartbeat] using he
  exact ⟨rfl, hn.instanceId, mem_append_left _ (hn.leader hlead)⟩

theorem sound_stop (hn : n.Backed i H) : n.stop.Sound i H := by
  rw [stop]
  split
  · exact .quiet hn rfl
  · refine .quiet ⟨hn.instanceId, ?_, ?_, ?_, ?_, ?_⟩ ?_
    · exact fun h => absurd rfl h
    · exact fun h => by cases h
    · exact fun h => by cases h
    · exact fun h => by cases h
    · exact fun h => by cases h
    · split <;> rfl

theorem sound_startElection {connected now : ℕ} (hn : n.Backed i H) (hrole : n.role ≠ .leader) :
    (n.startElection connected now).Sound i H := by
  rw [startElection]
  split
  · exact .quiet hn rfl
  set opened : Handled ι := ⟨n.nextCandidacy,
    [.log (.startingElection n.nextCandidacy.currentTerm), .save n.nextCandidacy.persistent]⟩
  have hopen : opened.Sound i H := by
    refine ⟨⟨hn.instanceId, ?_, ?_, ?_, ?_, ?_⟩, by simp [opened, envelope?]⟩
    · exact fun _ => congrArg some hn.instanceId
    · exact fun h => by cases h
    · exact fun h => absurd (hn.heartbeat h) hrole
    · exact fun h => by cases h
    · intro _ v hv
      obtain rfl : v = n.instanceId := Finset.mem_singleton.1 hv
      rw [hn.instanceId]
      exact mem_append_right _ mem_cons_self
  have hnode := hopen.node
  simp only [Handled.andThen_assoc]
  split
  · split
    · exact hopen.andThen (.quiet (hnode.resetElectionTimer fun h => by cases h) rfl)
    · refine hopen.andThen (.andThen (.quiet hnode rfl) ?_)
      exact sound_becomeLeader (hnode.mono (subset_append_left _ _)) rfl
  next hconn =>
  split
  · refine hopen.andThen (.andThen (.quiet (hnode.unanswered 0) rfl) ?_)
    exact sound_becomeLeader ((hnode.unanswered 0).mono (subset_append_left _ _)) rfl
  · -- The node asks its peers; as long as it has one, its own vote does not elect it.
    refine hopen.andThen (.andThen ?_ ?_)
    · refine ⟨(hnode.unanswered _).mono (subset_append_left _ _), fun e he => ?_⟩
      obtain rfl : e = ⟨i, none,
          .voteRequest ⟨opened.node.currentTerm, opened.node.instanceId, 0, 0⟩⟩ := by
        simpa [envelope?] using he
      exact ⟨rfl, hnode.instanceId⟩
    · rw [checkMajority_of_card_le_one hconn (Finset.card_singleton _).le]
      refine .quiet ?_ rfl
      exact ((hnode.unanswered _).resetElectionTimer fun h => by cases h).mono
        (subset_append_left _ _)

variable [DecidableEq ι]

/-- A node that leads grants its vote to nobody else. -/
theorem sound_castVote (hn : n.Backed i H) (hne : msg.candidateId ≠ i) : (n.castVote msg).Sound i H := by
  rw [castVote]
  split
  · next hg =>
    simp only [grantsVote, decide_eq_true_eq] at hg
    -- The vote it holds is not its own, so it follows.
    have hrole : n.role = .follower := by
      by_contra hrole
      have := hn.standing hrole
      rw [this] at hg
      rcases hg.2 with h | h
      · cases h
      · exact hne (some.inj h).symm
    refine .quiet ⟨hn.instanceId, ?_, ?_, ?_, ?_, ?_⟩ rfl
    · exact fun h => absurd hrole h
    · exact hn.leader
    · exact hn.heartbeat
    · intro h
      rw [hrole] at h
      cases h
    · exact hn.votes
  · exact .quiet hn rfl

theorem sound_handleVoteRequest (hn : n.Backed i H)
    (hne : msg.candidateId ≠ i) : (n.handleVoteRequest msg).1.Sound i H := by
  rw [handleVoteRequest]
  split
  · exact .quiet hn rfl
  simp only
  split
  · have hdown : (n.stepDown msg.term none).Sound i H := sound_stepDown hn
    exact hdown.andThen (sound_castVote hdown.node hne)
  · refine .andThen (.quiet hn rfl) (sound_castVote ?_ hne)
    exact hn.mono (subset_append_left _ _)

/-- A vote granted, in the term of the node, is recorded. -/
theorem castVote_granted (hterm : msg.term ≤ n.currentTerm)
    (hg : n.grantsVote msg) : .voted i (n.castVote msg).node.currentTerm msg.candidateId ∈
      (n.castVote msg).events i := by
  rw [castVote, if_pos hg]
  simp only [grantsVote, decide_eq_true_eq] at hg
  change Event.voted i n.currentTerm msg.candidateId ∈ [Event.voted i msg.term msg.candidateId]
  rw [Nat.le_antisymm hg.1 hterm]
  exact mem_singleton_self _

/-- The answer to a vote request is true: a granted vote is recorded. -/
theorem handleVoteRequest_granted (hg : (n.handleVoteRequest msg).2.voteGranted) :
    .voted i (n.handleVoteRequest msg).2.term msg.candidateId ∈
    (n.handleVoteRequest msg).1.events i := by
  rw [handleVoteRequest] at hg ⊢
  by_cases hstop : n.stopped
  · simp [hstop] at hg
  simp only [if_neg hstop] at hg ⊢
  rw [Handled.events_andThen]
  refine mem_append_right _ (castVote_granted ?_ hg)
  split
  · simp [stepDown, hstop]
  · next hlt => exact Nat.not_lt.1 hlt

@[simp] theorem handleVoteRequest_voterId (msg : RaftVoteRequest ι) :
    (n.handleVoteRequest msg).2.voterId = n.instanceId := by
  rw [handleVoteRequest]
  split
  · rfl
  · simp only [Handled.node_andThen, instanceId_castVote]
    split
    · exact n.instanceId_stepDown ..
    · rfl

/-- A vote counted is a vote on record. -/
theorem sound_handleVoteResponse {msg : RaftVoteResponse ι} (hn : n.Backed i H)
    (hmsg : msg.voteGranted → .voted msg.voterId msg.term i ∈ H) :
    (n.handleVoteResponse msg connected).Sound i H := by
  rw [handleVoteResponse]
  split
  · exact .quiet hn rfl
  split
  · exact sound_stepDown hn
  split
  · exact .quiet hn rfl
  next hcand =>
  push Not at hcand
  simp only
  split
  · next hg =>
    have hcounted : Backed { n with
        consecutiveUnansweredElections := 0
        votesReceived := insert msg.voterId n.votesReceived } i H := by
      refine { hn.unanswered 0 with votes := fun hrole v hv => ?_ }
      rcases Finset.mem_insert.1 hv with rfl | hv
      · rw [← hcand.2]
        exact hmsg hg
      · exact hn.votes hrole v hv
    exact .andThen (.quiet hcounted rfl)
      (sound_checkMajority (hcounted.mono (subset_append_left _ _)))
  · exact .quiet (hn.unanswered 0) rfl

theorem sound_handlePeerLeaving {leaving : ι} {connected now : ℕ} (hn : n.Backed i H) :
    (n.handlePeerLeaving leaving connected now).Sound i H := by
  rw [handlePeerLeaving]
  split
  · exact .quiet hn rfl
  next hlead =>
  push Not at hlead
  have hleft : Backed { n with
      leaderId := none
      consecutiveUnansweredElections := 0
      electionTimer := false } i H := { hn with noTimeout := fun _ => rfl }
  refine .andThen (.quiet hleft rfl) ?_
  exact sound_startElection (hleft.mono (subset_append_left _ _)) hlead.2.1

end RaftNode

/-! ## Runs of a fully connected cluster -/

variable [DecidableEq ι] [Fintype ι]

/-- The rules of the election in a fully connected cluster. -/
def raftRules (ι : Type*) [Fintype ι] : Rules ι where
  quorum := majorities ι
  mayVote := Set.univ
  mayDepose := True

namespace Cluster

/-- A node that counts its connected peers counts all others, and no node restarts. -/
def FullyConnected (_ : Cluster ι) : RaftAction ι → Prop
  | .electionTimeout _ connected _ => connected + 1 = card ι
  | .deliver _ _ connected => connected + 1 = card ι
  | .peerLeaving _ _ connected _ => connected + 1 = card ι
  | .peerDisconnected _ connected => connected + 1 = card ι
  | .startResume _ _ => False
  | .crash _ => False
  | _ => True

/-- A cluster before its first election: its nodes are followers, in terms and with
votes of earlier elections, and nothing was sent or logged since. -/
structure IsFormed (c : Cluster ι) : Prop where
  instanceId : ∀ i, (c.nodes i).instanceId = i
  role : ∀ i, (c.nodes i).role = .follower
  heartbeat : ∀ i, (c.nodes i).leaderHeartbeatTimer = false
  network : c.network = []
  log : c.log = []

/-- The election of the cluster is safe, and backs its nodes and messages. -/
structure ElectionSafe (c : Cluster ι) : Prop where
  safe : (raftRules ι).Safe c.election
  nodes : ∀ i, (c.nodes i).Backed i c.election.history
  network : ∀ e ∈ c.network, e.Truthful c.election.history

variable {c c' : Cluster ι}

theorem IsFormed.electionSafe (h : c.IsFormed) : c.ElectionSafe := by
  have hhist : c.election.history = [] := by simp [election, h.log]
  have hstand : ∀ i, (c.election.voter i).standing = false := by
    intro i
    simp [election, voter, h.role i]
  refine ⟨?_, fun i => ?_, ?_⟩
  · constructor <;> simp [hhist, hstand]
  · refine ⟨h.instanceId i, ?_, ?_, ?_, ?_, ?_⟩ <;> simp [h.role i, h.heartbeat i]
  · simp [h.network]

/-- Handling an input, by moves within the rules, keeps the election safe. -/
theorem ElectionSafe.perform (hc : c.ElectionSafe) {h : Handled ι}
    (hh : h.Allowed (raftRules ι) c.election i) (hs : h.Sound i c.election.history) :
    (c.perform i h).ElectionSafe := by
  have hsafe := Rules.Steps.safe majorities_intersect hh hc.safe
  rw [← election_perform] at hsafe
  have hhist : (c.perform i h).election.history = c.election.history ++ h.events i := by
    rw [election_perform, State.move_history]
  refine ⟨hsafe, fun j => ?_, fun e he => ?_⟩
  · rw [hhist]
    by_cases hj : j = i
    · subst hj
      simpa [perform] using hs.node
    · simpa [Cluster.perform, hj] using (hc.nodes j).mono (subset_append_left _ _)
  · rw [hhist]
    rcases mem_append.1 he with he | he
    · exact (hc.network e he).mono (subset_append_left _ _)
    · exact hs.sent e he

/-- A message that reaches a node keeps the election safe. -/
theorem ElectionSafe.receive (hc : c.ElectionSafe) {connected : ℕ}
    (hconn : connected + 1 = card ι) (he : e ∈ c.network) (hreach : e.reaches i) :
    (c.receive e i connected).ElectionSafe := by
  have hn := hc.nodes i
  have htrue := hc.network e he
  -- A broadcast reaches another node than its sender.
  have hsrc : e.dst = none → e.src ≠ i := by
    intro hd
    simpa [Envelope.reaches, hd] using hreach
  rw [Envelope.Truthful] at htrue
  rw [Cluster.receive]
  cases hmsg : e.msg with
  | voteRequest msg =>
    simp only [hmsg] at htrue
    obtain ⟨hd, hcand⟩ := htrue
    have hne : msg.candidateId ≠ i := hcand ▸ hsrc hd
    have h := hc.perform (allowed_handleVoteRequest rfl fun _ => trivial)
      (sound_handleVoteRequest hn hne)
    refine ⟨h.safe, h.nodes, fun e' he' => ?_⟩
    rcases mem_append.1 he' with he' | he'
    · exact h.network e' he'
    · obtain rfl := mem_singleton.1 he'
      intro hg
      refine ⟨e.src, rfl, ?_⟩
      have hv := handleVoteRequest_granted (i := i) hg
      rw [handleVoteRequest_voterId, hn.instanceId]
      rw [hcand] at hv
      change Event.voted _ _ _ ∈ (c.perform i _).election.history
      rw [election_perform]
      exact mem_append_right _ hv
  | voteResponse msg =>
    simp only [hmsg] at htrue
    have hvoted : msg.voteGranted → Event.voted msg.voterId msg.term i ∈ c.election.history := by
      intro hg
      obtain ⟨d, hd, hv⟩ := htrue hg
      have : d = i := by simpa [Envelope.reaches, hd] using hreach
      rwa [this] at hv
    refine hc.perform (allowed_handleVoteResponse rfl ?_)
      (sound_handleVoteResponse hn hvoted)
    intro hrole hterm hg hmaj
    refine ⟨insert msg.voterId (c.nodes i).votesReceived, ?_, fun v hv => ?_⟩
    · rw [hconn] at hmaj
      exact hmaj
    · rcases Finset.mem_insert.1 hv with rfl | hv
      · rw [← hterm]
        exact hvoted hg
      · exact hn.votes hrole v hv
  | appendEntries msg =>
    simp only [hmsg] at htrue
    obtain ⟨hd, -, hwon⟩ := htrue
    refine hc.perform (allowed_handleAppendEntries rfl ?_)
      (sound_handleAppendEntries hn)
    intro _ _ hterm
    rw [hterm] at hwon
    exact ⟨trivial, e.src, hsrc hd, hwon⟩

omit [DecidableEq ι] in
/-- One vote is a majority of a single node. -/
theorem singleton_mem_quorum {connected : ℕ} (hconn : connected + 1 = card ι)
    (hone : (connected + 1) / 2 + 1 ≤ 1) : {i} ∈ (raftRules ι).quorum := by
  rw [hconn] at hone
  simpa [raftRules, majorities] using hone

/-- A step of a fully connected cluster keeps the election safe. -/
theorem ElectionSafe.step (hc : c.ElectionSafe) {a : RaftAction ι} (ha : c.FullyConnected a)
    (hstep : c.step a = some c') : c'.ElectionSafe := by
  have hn := hc.nodes
  unfold Cluster.step at hstep
  cases a with
  | electionTimeout i connected now =>
    obtain ⟨htimer, ⟨⟩⟩ := ite_none_right_eq_some.1 hstep
    have hrole : (c.nodes i).role ≠ .leader := by
      intro h
      rw [(hn i).noTimeout h] at htimer
      cases htimer
    have hfired : Backed { c.nodes i with electionTimer := false } i
        c.election.history := { hn i with noTimeout := fun _ => rfl }
    exact hc.perform (allowed_startElection rfl (hn i).instanceId (fun _ => trivial)
      (singleton_mem_quorum ha)) (sound_startElection hfired hrole)
  | deliver e i connected =>
    obtain ⟨⟨he, hreach⟩, ⟨⟩⟩ := ite_none_right_eq_some.1 hstep
    exact hc.receive ha he hreach
  | peerLeaving i leaving connected now =>
    cases hstep
    exact hc.perform (allowed_handlePeerLeaving rfl (hn i).instanceId (fun _ => trivial)
      (singleton_mem_quorum ha)) (sound_handlePeerLeaving (hn i))
  | peerDisconnected i connected =>
    cases hstep
    exact hc.perform (allowed_onPeerDisconnected rfl)
      (sound_onPeerDisconnected (hn i))
  | heartbeat i =>
    obtain ⟨htimer, ⟨⟩⟩ := ite_none_right_eq_some.1 hstep
    exact hc.perform (allowed_sendHeartbeat rfl)
      (sound_sendHeartbeat (hn i) ((hn i).heartbeat htimer))
  | stop i =>
    cases hstep
    exact hc.perform (allowed_stop rfl) (sound_stop (hn i))
  | persist | loseSave =>
    obtain ⟨_, _, rfl⟩ := map_eq_some_iff.1 hstep
    exact ⟨hc.safe, hn, hc.network⟩
  | startCall | readRow =>
    obtain ⟨-, ⟨⟩⟩ := ite_none_right_eq_some.1 hstep
    exact ⟨hc.safe, hn, hc.network⟩
  | startResume i now => exact ha.elim
  | crash i => exact ha.elim

/-- What was logged in a run stays logged. -/
theorem history_subset (h : (raftSystem ι).Path FullyConnected c c') :
    c.election.history ⊆ c'.election.history := by
  have hlog : c.log ⊆ c'.log := h.relates (R := fun c c' => c.log ⊆ c'.log)
    (fun _ => List.Subset.refl _) (fun _ _ _ => List.Subset.trans)
    fun _ _ _ _ hstep => log_subset_of_step hstep
  exact filterMap_subset _ hlog

end Cluster

/-- In a fully connected cluster, a term in which no node took the leadership by the
safety valve has at most one leader: `i` led at one time, `j` leads later. -/
theorem leader_unique {c₀ c₁ c₂ : Cluster ι} (h₀ : c₀.IsFormed)
    (h₁ : (raftSystem ι).Path FullyConnected c₀ c₁)
    (h₂ : (raftSystem ι).Path FullyConnected c₁ c₂) {i j : ι}
    (hi : (c₁.nodes i).role = .leader) (hj : (c₂.nodes j).role = .leader)
    (hterm : (c₁.nodes i).currentTerm = (c₂.nodes j).currentTerm)
    (hforced : ¬c₂.ForcedIn (c₂.nodes j).currentTerm) : i = j := by
  have hsafe : ∀ {c c'}, (raftSystem ι).Path FullyConnected c c' → c.ElectionSafe →
      c'.ElectionSafe := fun h hc => h.invariant hc fun _ _ _ hs ha hstep => hs.step ha hstep
  have hc₁ := hsafe h₁ h₀.electionSafe
  have hc₂ := hsafe h₂ hc₁
  rw [forcedIn_iff] at hforced
  have hwon := history_subset h₂ ((hc₁.nodes i).leader hi)
  rw [hterm] at hwon
  exact (hc₂.safe.unique i j _ hwon ((hc₂.nodes j).leader hj)).resolve_left hforced

/-! ## Runs of two nodes -/

/-- Two nodes that have been started and heard nothing yet. -/
def formedPair : Cluster (Fin 2) where
  nodes i := resume { instanceId := i, gracePeriodMs := 0 } (RaftStateStore.load none) 0
  row := none
  saving := []
  starting _ := .idle
  rebooting _ := false
  network := []
  log := []

theorem formedPair_isFormed : formedPair.IsFormed :=
  ⟨fun _ => rfl, fun _ => rfl, fun _ => rfl, rfl, rfl⟩

/-- A test for the steps of two fully connected nodes in elections. -/
def fullyConnectedTest (_ : Cluster (Fin 2)) : RaftAction (Fin 2) → Bool
  | .electionTimeout _ connected _ | .deliver _ _ connected => connected = 1
  | _ => false

theorem fullyConnected_of_test (c : Cluster (Fin 2)) (a : RaftAction (Fin 2))
    (h : fullyConnectedTest c a) : c.FullyConnected a := by
  cases a with
  | electionTimeout | deliver =>
    simp only [fullyConnectedTest, decide_eq_true_eq] at h
    subst h
    rfl
  | _ => cases h

/-- `1` elects `0`, which is and stays the leader of term `1`. -/
theorem leader_unique_pair : ∃ c : Cluster (Fin 2), (c.nodes 0).role = .leader ∧
    ∀ j, (c.nodes j).role = .leader → (c.nodes j).currentTerm = 1 → 0 = j := by
  have hrun : ∃ c, (raftSystem (Fin 2)).Path FullyConnected formedPair c ∧
      decide ((c.nodes 0).role = .leader ∧ (c.nodes 0).currentTerm = 1 ∧
        ∀ l ∈ c.log, l.2 ≠ .forcingSelfElection 1) :=
    System.exists_path_of_run fullyConnected_of_test [
      .electionTimeout 0 1 0,
      .deliver ⟨0, none, .voteRequest ⟨1, 0, 0, 0⟩⟩ 1 1,
      .deliver ⟨1, some 0, .voteResponse ⟨1, true, 1⟩⟩ 0 1] (by decide)
  obtain ⟨c, hpath, hc⟩ := hrun
  obtain ⟨hlead, hterm, hlog⟩ := of_decide_eq_true hc
  refine ⟨c, hlead, fun j hj hjterm => ?_⟩
  refine leader_unique formedPair_isFormed hpath .refl hlead hj (hterm.trans hjterm.symm) ?_
  rw [hjterm]
  rintro ⟨i, hi⟩
  exact hlog _ hi rfl

/-- A run of two fully connected nodes whose messages are all lost, in which both
become leaders of term `3` by the safety valve. -/
theorem exists_two_leaders : ¬∀ c₀ c₁ c₂ : Cluster (Fin 2), c₀.IsFormed →
    (raftSystem (Fin 2)).Path FullyConnected c₀ c₁ →
    (raftSystem (Fin 2)).Path FullyConnected c₁ c₂ → ∀ i j,
    (c₁.nodes i).role = .leader → (c₂.nodes j).role = .leader →
    (c₁.nodes i).currentTerm = (c₂.nodes j).currentTerm → i = j := by
  intro h
  have hrun : ∃ c, (raftSystem (Fin 2)).Path FullyConnected formedPair c ∧
      decide ((c.nodes 0).role = .leader ∧ (c.nodes 1).role = .leader ∧
        (c.nodes 0).currentTerm = (c.nodes 1).currentTerm) :=
    System.exists_path_of_run fullyConnected_of_test [
      .electionTimeout 0 1 0, .electionTimeout 1 1 0,
      .electionTimeout 0 1 0, .electionTimeout 1 1 0,
      .electionTimeout 0 1 0, .electionTimeout 1 1 0] (by decide)
  obtain ⟨c, hpath, hc⟩ := hrun
  obtain ⟨h0, h1, hterm⟩ := of_decide_eq_true hc
  have := h formedPair c c formedPair_isFormed hpath .refl 0 1 h0 h1 hterm
  exact absurd this (by decide)

end Kici
