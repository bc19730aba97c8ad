import Kici.Cluster.RaftElection

/-!
# One vote in each term

A node gives its vote in a term to at most one candidate, as long as it does not
forget whom it voted for. It does forget, within the term, in three ways:

* a candidate or leader that hears of a leader of its own term steps down
  (`RaftNode.handleAppendEntries`), which clears its vote;
* a start takes over the shared row, which may be older than the node's own vote,
  or hold the vote of another node;
* after a crash, a node may be asked for its vote before its start has read the row.

`votesUnique_of_voteSafe` shows that these are the only ways: in a run whose steps
avoid them (`Cluster.VoteSafe`) votes are unique. `exists_two_votes` is a run,
without restarts, in which a node votes for itself and then for another in one term.
-/

namespace Kici

open Option Election RaftNode Cluster System

variable {ι : Type*} [DecidableEq ι]

/-- The steps that let no node vote without the memory of its votes. -/
def Cluster.VoteSafe (c : Cluster ι) : RaftAction ι → Prop
  | .electionTimeout i _ _ => c.rebooting i = false
  | .peerLeaving i _ _ _ => c.rebooting i = false
  | .deliver e i _ =>
    match e.msg with
    | .voteRequest _ => c.rebooting i = false
    | .voteResponse _ => True
    | .appendEntries msg => msg.term = (c.nodes i).currentTerm →
        (c.nodes i).stopped ∨ (c.nodes i).role = .follower
  | .startResume i _ => ∀ state, c.starting i = .loaded state → ∀ t k, c.GaveVote i t k →
      t < state.currentTerm ∨ t = state.currentTerm ∧ state.votedFor = some k
  | _ => True

namespace Cluster

/-- Nodes are named by themselves, and those that are not rebooting remember their
votes, which are unique. -/
structure VotesRemembered (c : Cluster ι) : Prop where
  instanceId : ∀ i, (c.nodes i).instanceId = i
  remembers : ∀ i, c.rebooting i = false → c.election.Remembers i
  unique : c.election.VotesUnique

/-- The rules of the election in `c`: the nodes that are not rebooting vote, and
nobody is deposed. (Who is elected does not matter here.) -/
def voteRules (c : Cluster ι) : Rules ι where
  quorum := Set.univ
  mayVote := {i | c.rebooting i = false}
  mayDepose := False

variable {c c' : Cluster ι} {i : ι}

/-- Handling an input, by moves within the rules, keeps the votes remembered. -/
theorem VotesRemembered.perform (hc : c.VotesRemembered) {h : Handled ι}
    (hid : h.node.instanceId = i) (hh : h.Allowed c.voteRules c.election i) :
    (c.perform i h).VotesRemembered := by
  obtain ⟨hr, hu⟩ := Rules.Steps.votesUnique (A := {j | c.rebooting j = false}) not_false
    subset_rfl hh hc.remembers hc.unique
  rw [← election_perform] at hr hu
  refine ⟨fun j => ?_, hr, hu⟩
  by_cases hj : j = i
  · subst hj
    simpa [Cluster.perform] using hid
  · simpa [Cluster.perform, hj] using hc.instanceId j

/-- What a message does keeps the votes remembered, if it is safe to deliver. -/
theorem VotesRemembered.receive (hc : c.VotesRemembered) {e : Envelope ι} {connected : ℕ}
    (hsafe : c.VoteSafe (.deliver e i connected)) : (c.receive e i connected).VotesRemembered := by
  have hid := hc.instanceId i
  rw [Cluster.VoteSafe] at hsafe
  rw [Cluster.receive]
  cases hmsg : e.msg with
  | voteRequest msg =>
    simp only [hmsg] at hsafe
    have h := hc.perform ((instanceId_handleVoteRequest _ msg).trans hid)
      (allowed_handleVoteRequest rfl fun _ => hsafe)
    exact ⟨h.instanceId, h.remembers, h.unique⟩
  | voteResponse msg =>
    refine hc.perform (by simpa using hid) (allowed_handleVoteResponse rfl ?_)
    exact fun _ _ _ _ => ⟨∅, trivial, by simp⟩
  | appendEntries msg =>
    simp only [hmsg] at hsafe
    refine hc.perform (by simpa using hid) (allowed_handleAppendEntries rfl ?_)
    intro hstop hrole hterm
    exact absurd ((hsafe hterm).resolve_left hstop) hrole

/-- A safe step keeps the votes remembered. -/
theorem VotesRemembered.step (hc : c.VotesRemembered) {a : RaftAction ι} (hsafe : c.VoteSafe a)
    (hstep : c.step a = some c') : c'.VotesRemembered := by
  have hid := hc.instanceId
  unfold Cluster.step at hstep
  cases a with
  | electionTimeout i connected now =>
    obtain ⟨-, ⟨⟩⟩ := ite_none_right_eq_some.1 hstep
    exact hc.perform (by simpa using hid i)
      (allowed_startElection rfl (hid i) (fun _ => hsafe) fun _ => trivial)
  | deliver e i connected =>
    obtain ⟨-, ⟨⟩⟩ := ite_none_right_eq_some.1 hstep
    exact hc.receive hsafe
  | peerLeaving i leaving connected now =>
    cases hstep
    exact hc.perform (by simpa using hid i)
      (allowed_handlePeerLeaving rfl (hid i) (fun _ => hsafe) fun _ => trivial)
  | peerDisconnected i connected =>
    cases hstep
    exact hc.perform (by simpa using hid i) (allowed_onPeerDisconnected rfl)
  | heartbeat i =>
    obtain ⟨-, ⟨⟩⟩ := ite_none_right_eq_some.1 hstep
    exact hc.perform (hid i) (allowed_sendHeartbeat rfl)
  | stop i =>
    cases hstep
    exact hc.perform (by simpa using hid i) (allowed_stop rfl)
  | persist | loseSave =>
    obtain ⟨_, _, rfl⟩ := map_eq_some_iff.1 hstep
    exact ⟨hid, hc.remembers, hc.unique⟩
  | startCall | readRow =>
    obtain ⟨-, ⟨⟩⟩ := ite_none_right_eq_some.1 hstep
    exact ⟨hid, hc.remembers, hc.unique⟩
  | startResume i now =>
    simp only at hstep
    split at hstep
    · next state hload =>
      cases hstep
      refine ⟨fun j => ?_, fun j hj t k hv => ?_, hc.unique⟩
      · by_cases hji : j = i
        · subst hji
          simpa [resume] using hid j
        · simpa [hji] using hid j
      · by_cases hji : j = i
        · subst hji
          have := hsafe state hload t k ((c.gaveVote_iff j t k).2 hv)
          simpa [election, voter, resume] using this
        · simp only [ne_eq, hji, not_false_eq_true, Function.update_of_ne] at hj
          simpa [election, hji] using hc.remembers j hj t k hv
    · cases hstep
  | crash i =>
    cases hstep
    refine ⟨fun j => ?_, fun j hj t k hv => ?_, hc.unique⟩
    · by_cases hji : j = i
      · subst hji
        simp
      · simpa [hji] using hid j
    · by_cases hji : j = i
      · subst hji
        simp at hj
      · simp only [ne_eq, hji, not_false_eq_true, Function.update_of_ne] at hj
        simpa [election, hji] using hc.remembers j hj t k hv

omit [DecidableEq ι] in
theorem IsFresh.votesRemembered (h : c.IsFresh) : c.VotesRemembered := by
  obtain ⟨hnodes, -, -, -, -, hlog⟩ := h
  refine ⟨fun i => ?_, fun i _ t k hv => ?_, fun i t k k' hv => ?_⟩
  · obtain ⟨_, hi⟩ := hnodes i
    rw [hi]
  · simp [election, hlog] at hv
  · simp [election, hlog] at hv

end Cluster

/-- In a run all of whose steps are safe, a node gives its vote in a term to at
most one candidate. -/
theorem votesUnique_of_voteSafe {c : Cluster ι} (h : (raftSystem ι).Reachable VoteSafe c)
    {i k k' : ι} {t : ℕ} (hk : c.GaveVote i t k) (hk' : c.GaveVote i t k') : k = k' := by
  have hinv : c.VotesRemembered := h.invariant (fun _ hs => IsFresh.votesRemembered hs)
    fun _ _ _ hs hsafe hstep => hs.step hsafe hstep
  rw [gaveVote_iff] at hk hk'
  exact hinv.unique i t k k' hk hk'

/-! ## Runs of five nodes -/

/-- Five nodes that have not started, and no row. -/
def freshCluster : Cluster (Fin 5) where
  nodes i := { instanceId := i, gracePeriodMs := 0 }
  row := none
  saving := []
  starting _ := .idle
  rebooting _ := false
  network := []
  log := []

theorem freshCluster_isFresh : freshCluster.IsFresh :=
  ⟨fun _ => ⟨0, rfl⟩, rfl, fun _ => rfl, fun _ => rfl, rfl, rfl⟩

/-- The start of a node whose row is read at once. -/
def startNow (i : Fin 5) : List (RaftAction (Fin 5)) := [.startCall i, .readRow i, .startResume i 0]

/-- The node that takes over the row would remember the vote. -/
def remembersVote (state : RaftPersistentState (Fin 5)) (t : ℕ) (k : Fin 5) : Bool :=
  t < state.currentTerm || t = state.currentTerm && state.votedFor = some k

/-- A test for safe steps: candidacies, requests for votes, crashes and starts. -/
def voteSafeTest (c : Cluster (Fin 5)) : RaftAction (Fin 5) → Bool
  | .electionTimeout i _ _ | .deliver ⟨_, _, .voteRequest _⟩ i _ => !c.rebooting i
  | .startCall _ | .readRow _ | .persist _ | .crash _ => true
  | .startResume i _ =>
    match c.starting i with
    | .loaded state => c.log.all fun
      | (j, .startingElection t) => j ≠ i || remembersVote state t i
      | (j, .voteGranted k t) => j ≠ i || remembersVote state t k
      | _ => true
    | _ => true
  | _ => false

theorem voteSafe_of_test (c : Cluster (Fin 5)) (a : RaftAction (Fin 5))
    (h : voteSafeTest c a) : c.VoteSafe a := by
  cases a with
  | electionTimeout i => simpa [voteSafeTest, VoteSafe] using h
  | deliver e i connected =>
    obtain ⟨src, dst, msg⟩ := e
    cases msg with
    | voteRequest msg => simpa [voteSafeTest, VoteSafe] using h
    | _ => cases h
  | startResume i =>
    intro state hloaded t k hv
    rw [voteSafeTest, hloaded] at h
    have hall := List.all_eq_true.1 h
    rcases hv with ⟨hself, rfl⟩ | hother
    · simpa [remembersVote] using hall _ hself
    · simpa [remembersVote] using hall _ hother
  | startCall | readRow | persist | crash => trivial
  | _ => cases h

/-- A node votes for one candidate, crashes, starts again and denies its vote to the other
candidate of the term: its first vote is its only one. -/
theorem votesUnique_restart : ∃ c : Cluster (Fin 5), c.GaveVote 1 1 0 ∧
    (1, LogEvent.voteDenied 2 1) ∈ c.log ∧ ∀ k, c.GaveVote 1 1 k → 0 = k := by
  have hrun : ∃ c, (raftSystem (Fin 5)).Path VoteSafe freshCluster c ∧
      decide ((1, LogEvent.voteGranted 0 1) ∈ c.log ∧ (1, LogEvent.voteDenied 2 1) ∈ c.log) :=
    exists_path_of_run voteSafe_of_test ([0, 1, 2].flatMap startNow ++ [
      .electionTimeout 0 4 0,
      .electionTimeout 2 4 0,
      .deliver ⟨0, none, .voteRequest ⟨1, 0, 0, 0⟩⟩ 1 4,
      .persist 0, .persist 0, .persist 0, .persist 0,
      .crash 1] ++ startNow 1 ++ [
      .deliver ⟨2, none, .voteRequest ⟨1, 2, 0, 0⟩⟩ 1 4]) (by decide)
  obtain ⟨c, hpath, hc⟩ := hrun
  obtain ⟨hvoted, hdenied⟩ := of_decide_eq_true hc
  have hvote : c.GaveVote 1 1 0 := .inr hvoted
  exact ⟨c, hvote, hdenied, fun _ hk =>
    votesUnique_of_voteSafe ⟨_, freshCluster_isFresh, hpath⟩ hvote hk⟩

/-- A run without restarts in which a node votes for two candidates in one term. The
nodes `0`, `1` and `2` stand in term `1`, `3` and `4` elect `0`, and the message of
`0` as leader makes `1` forget its vote before it hears of the candidacy of `2`. -/
theorem exists_two_votes : ¬∀ c : Cluster (Fin 5), (raftSystem (Fin 5)).Reachable anyStep c →
    ∀ i t k k', c.GaveVote i t k → c.GaveVote i t k' → k = k' := by
  intro h
  have hrun : ∃ c, (raftSystem (Fin 5)).Path anyStep freshCluster c ∧
      decide ((1, LogEvent.startingElection 1) ∈ c.log ∧ (1, LogEvent.voteGranted 2 1) ∈ c.log) :=
    exists_path_of_run anyStep_of_true ((List.finRange 5).flatMap startNow ++ [
      .electionTimeout 0 4 0,
      .electionTimeout 1 4 0,
      .electionTimeout 2 4 0,
      .deliver ⟨0, none, .voteRequest ⟨1, 0, 0, 0⟩⟩ 3 4,
      .deliver ⟨0, none, .voteRequest ⟨1, 0, 0, 0⟩⟩ 4 4,
      .deliver ⟨3, some 0, .voteResponse ⟨1, true, 3⟩⟩ 0 4,
      .deliver ⟨4, some 0, .voteResponse ⟨1, true, 4⟩⟩ 0 4,
      .deliver ⟨0, none, .voteRequest ⟨1, 0, 0, 0⟩⟩ 1 4,
      .deliver ⟨0, none, .appendEntries ⟨1, 0⟩⟩ 1 4,
      .deliver ⟨2, none, .voteRequest ⟨1, 2, 0, 0⟩⟩ 1 4]) (by decide)
  obtain ⟨c, hpath, hc⟩ := hrun
  obtain ⟨hself, hother⟩ := of_decide_eq_true hc
  have := h c ⟨_, freshCluster_isFresh, hpath⟩ 1 1 1 2 (.inl ⟨hself, rfl⟩) (.inr hother)
  exact absurd this (by decide)

end Kici
