import Mathlib.Data.Finset.Card

/-!
# The Raft node

The leader election of a coordinator: its state (`RaftNode`), the messages it
exchanges with its peers, and what it does on each election input. An input
gives the node's next state and its effects, in order: the state it writes to the
database (asynchronously, failures are only logged), the messages it broadcasts,
the two leadership callbacks, and what it logs, which is the record of the
elections (`LogEvent`).

What the node reads from outside is an argument: the number of connected
coordinator peers, and the current time in milliseconds. Timers are modelled by
whether they are pending.

The cluster keeps one `raft_state` row, which all its coordinators load and save
(`RaftStateStore`).
-/

namespace Kici

variable {ι : Type*}

/-! ## The shared row -/

structure RaftPersistentState (ι : Type*) where
  currentTerm : ℕ
  votedFor : Option ι
  leaderId : Option ι
  deriving DecidableEq

namespace RaftStateStore

/-- No row reads as term `0`, without a vote or a leader. -/
def load (row : Option (RaftPersistentState ι)) : RaftPersistentState ι :=
  row.getD ⟨0, none, none⟩

def save (_row : Option (RaftPersistentState ι)) (state : RaftPersistentState ι) :
    Option (RaftPersistentState ι) :=
  some state

/-- Save unless the stored term is newer. -/
def saveUnlessNewerTerm (row : Option (RaftPersistentState ι)) (state : RaftPersistentState ι) :
    Option (RaftPersistentState ι) :=
  match row with
  | none => some state
  | some stored => if stored.currentTerm ≤ state.currentTerm then some state else some stored

end RaftStateStore

/-! ## Messages and effects -/

structure RaftVoteRequest (ι : Type*) where
  term : ℕ
  candidateId : ι
  lastLogIndex : ℕ
  lastLogTerm : ℕ
  deriving DecidableEq

structure RaftVoteResponse (ι : Type*) where
  term : ℕ
  voteGranted : Bool
  voterId : ι
  deriving DecidableEq

structure RaftAppendEntries (ι : Type*) where
  term : ℕ
  leaderId : ι
  deriving DecidableEq

inductive RaftMessage (ι : Type*)
  | voteRequest (msg : RaftVoteRequest ι)
  | voteResponse (msg : RaftVoteResponse ι)
  | appendEntries (msg : RaftAppendEntries ι)
  deriving DecidableEq

/-- What a node logs about elections, with the term it logs. -/
inductive LogEvent (ι : Type*)
  | leaderLeaving (leavingPeer : ι) (term : ℕ)
  | startingElection (term : ℕ)
  | deferringSelfElection
  | selfElecting (term : ℕ)
  | forcingSelfElection (term : ℕ)
  | voteGranted (candidateId : ι) (term : ℕ)
  | voteDenied (candidateId : ι) (term : ℕ)
  | voteReceived (voterId : ι) (term : ℕ)
  | becameLeader (term : ℕ)
  | lostLeadership (newTerm : ℕ) (newLeaderId : Option ι)
  | steppedDown (newTerm : ℕ) (newLeaderId : Option ι)
  deriving DecidableEq

inductive RaftEffect (ι : Type*)
  | save (state : RaftPersistentState ι)
  | saveUnlessNewerTerm (state : RaftPersistentState ι)
  | broadcast (msg : RaftMessage ι)
  | onBecomeLeader
  | onLoseLeadership
  | log (event : LogEvent ι)

/-! ## The node -/

inductive RaftRole
  | follower
  | candidate
  | leader
  deriving DecidableEq

structure RaftNode (ι : Type*) where
  instanceId : ι
  /-- Grace period before a dormant self-election. -/
  gracePeriodMs : ℕ
  startedAt : ℕ := 0
  currentTerm : ℕ := 0
  votedFor : Option ι := none
  leaderId : Option ι := none
  role : RaftRole := .follower
  stopped : Bool := false
  /-- Whether the election timer is pending. -/
  electionTimer : Bool := false
  /-- Whether the heartbeat interval is running. -/
  leaderHeartbeatTimer : Bool := false
  votesReceived : Finset ι := ∅
  /-- Consecutive elections no peer answered. -/
  consecutiveUnansweredElections : ℕ := 0

/-- The next state of a node handling an input, and its effects in order. -/
structure Handled (ι : Type*) where
  node : RaftNode ι
  effects : List (RaftEffect ι)

/-- Handling on, after the effects so far. -/
def Handled.andThen (h : Handled ι) (f : RaftNode ι → Handled ι) : Handled ι :=
  ⟨(f h.node).node, h.effects ++ (f h.node).effects⟩

namespace RaftNode

variable (n : RaftNode ι)

/-- What the node persists. -/
def persistent : RaftPersistentState ι := ⟨n.currentTerm, n.votedFor, n.leaderId⟩

/-- Restart the election timer. -/
def resetElectionTimer : RaftNode ι := { n with electionTimer := !n.stopped }

/-- Whether the grace period of a dormant self-election is running. -/
def inGracePeriod (now : ℕ) : Bool :=
  0 < n.gracePeriodMs ∧ now - n.startedAt < n.gracePeriodMs

def becomeLeader : Handled ι :=
  if n.stopped then ⟨n, []⟩
  else
    let leading := { n with
      role := .leader
      leaderId := some n.instanceId
      consecutiveUnansweredElections := 0
      electionTimer := false
      leaderHeartbeatTimer := true }
    ⟨leading, [
      .log (.becameLeader n.currentTerm),
      .broadcast (.appendEntries ⟨n.currentTerm, n.instanceId⟩),
      .save leading.persistent,
      .onBecomeLeader]⟩

def stepDown (newTerm : ℕ) (newLeaderId : Option ι) : Handled ι :=
  if n.stopped then ⟨n, []⟩
  else
    let down := { n with
      currentTerm := newTerm
      votedFor := none
      role := .follower
      consecutiveUnansweredElections := 0
      leaderId := newLeaderId.or n.leaderId
      leaderHeartbeatTimer := false
      electionTimer := true }
    ⟨down, .save down.persistent ::
      if n.role = .leader then [.log (.lostLeadership newTerm newLeaderId), .onLoseLeadership]
      else [.log (.steppedDown newTerm newLeaderId)]⟩

/-- The cluster size counts the connected coordinator peers and the node itself. -/
def checkMajority (connected : ℕ) : Handled ι :=
  if n.role ≠ .candidate then ⟨n, []⟩
  else
    let clusterSize := connected + 1
    let majority := clusterSize / 2 + 1
    if majority ≤ n.votesReceived.card then n.becomeLeader else ⟨n, []⟩

/-- The node as a candidate of the next term, having voted for itself. -/
def nextCandidacy : RaftNode ι :=
  { n with
    currentTerm := n.currentTerm + 1
    votedFor := some n.instanceId
    role := .candidate
    votesReceived := {n.instanceId} }

/-- Increment the term, vote for self and request votes. -/
def startElection (connected now : ℕ) : Handled ι :=
  if n.stopped then ⟨n, []⟩
  else
    let c := n.nextCandidacy
    let opened : Handled ι :=
      ⟨c, [.log (.startingElection c.currentTerm), .save c.persistent]⟩
    if connected = 0 then
      if c.inGracePeriod now then
        opened.andThen fun c => ⟨c.resetElectionTimer, [.log .deferringSelfElection]⟩
      else
        (opened.andThen fun c => ⟨c, [.log (.selfElecting c.currentTerm)]⟩).andThen becomeLeader
    else if 2 ≤ c.consecutiveUnansweredElections then
      -- The safety valve: two elections in a row went unanswered.
      (opened.andThen fun c => ⟨{ c with consecutiveUnansweredElections := 0 },
        [.log (.forcingSelfElection c.currentTerm)]⟩).andThen becomeLeader
    else
      ((opened.andThen fun c =>
        ⟨{ c with consecutiveUnansweredElections := c.consecutiveUnansweredElections + 1 },
          [.broadcast (.voteRequest ⟨c.currentTerm, c.instanceId, 0, 0⟩)]⟩).andThen
        fun c => c.checkMajority connected).andThen
        fun c => ⟨c.resetElectionTimer, []⟩

variable [DecidableEq ι]

/-- Whether the node gives the candidate its vote, once it is in the term. -/
def grantsVote (msg : RaftVoteRequest ι) : Bool :=
  n.currentTerm ≤ msg.term ∧ (n.votedFor = none ∨ n.votedFor = some msg.candidateId)

/-- The vote on a request, by a node that has moved to its term. -/
def castVote (msg : RaftVoteRequest ι) : Handled ι :=
  if n.grantsVote msg then
    let voted := { n with votedFor := some msg.candidateId }
    ⟨voted.resetElectionTimer, [
      .save voted.persistent,
      .log (.voteGranted msg.candidateId msg.term)]⟩
  else ⟨n, [.log (.voteDenied msg.candidateId msg.term)]⟩

def handleVoteRequest (msg : RaftVoteRequest ι) : Handled ι × RaftVoteResponse ι :=
  if n.stopped then (⟨n, []⟩, ⟨n.currentTerm, false, n.instanceId⟩)
  else
    let moved := if n.currentTerm < msg.term then n.stepDown msg.term none else ⟨n, []⟩
    let voted := moved.andThen fun n => n.castVote msg
    (voted, ⟨voted.node.currentTerm, moved.node.grantsVote msg, voted.node.instanceId⟩)

def handleVoteResponse (msg : RaftVoteResponse ι) (connected : ℕ) : Handled ι :=
  if n.stopped then ⟨n, []⟩
  else if n.currentTerm < msg.term then n.stepDown msg.term none
  else if n.role ≠ .candidate ∨ msg.term ≠ n.currentTerm then ⟨n, []⟩
  else
    -- Any answer, granted or not, proves that peers are reachable.
    let answered := { n with consecutiveUnansweredElections := 0 }
    if msg.voteGranted then
      let counted := { answered with votesReceived := insert msg.voterId n.votesReceived }
      Handled.andThen ⟨counted, [.log (.voteReceived msg.voterId msg.term)]⟩
        fun c => c.checkMajority connected
    else ⟨answered, []⟩

def handleAppendEntries (msg : RaftAppendEntries ι) : Handled ι :=
  if n.stopped then ⟨n, []⟩
  else
    let heard := { n with consecutiveUnansweredElections := 0 }
    if n.currentTerm ≤ msg.term then
      -- Also within the term, for a candidate or a leader.
      if n.currentTerm < msg.term ∨ n.role ≠ .follower then
        heard.stepDown msg.term (some msg.leaderId)
      else ⟨{ heard with leaderId := some msg.leaderId }.resetElectionTimer, []⟩
    else ⟨heard, []⟩

/-- A peer announced that it leaves: if it led, elect a new leader at once. -/
def handlePeerLeaving (leaving : ι) (connected now : ℕ) : Handled ι :=
  if n.stopped ∨ n.role = .leader ∨ n.leaderId ≠ some leaving then ⟨n, []⟩
  else
    Handled.andThen
      ⟨{ n with leaderId := none, consecutiveUnansweredElections := 0, electionTimer := false },
        [.log (.leaderLeaving leaving n.currentTerm)]⟩
      fun n => n.startElection connected now

/-- Without connected peers, the election timer is restarted: in full within the
grace period, and shortened to 500 ms otherwise. -/
def onPeerDisconnected (connected : ℕ) : Handled ι :=
  if n.stopped ∨ n.role = .leader ∨ connected ≠ 0 then ⟨n, []⟩
  else ⟨n.resetElectionTimer, []⟩

/-- The heartbeat interval of a leader. -/
def sendHeartbeat : Handled ι :=
  ⟨n, [.broadcast (.appendEntries ⟨n.currentTerm, n.instanceId⟩)]⟩

/-- End the node's part in elections until the next start. -/
def stop : Handled ι :=
  if n.stopped then ⟨n, []⟩
  else
    let down := { n with
      stopped := true
      electionTimer := false
      leaderHeartbeatTimer := false
      role := .follower
      leaderId := if n.role = .leader then none else n.leaderId }
    ⟨down, (if n.role = .leader then [.onLoseLeadership] else []) ++
      [.saveUnlessNewerTerm down.persistent]⟩

/-- The part of the start after the row was loaded. -/
def resume (state : RaftPersistentState ι) (now : ℕ) : RaftNode ι :=
  { n with
    currentTerm := state.currentTerm
    votedFor := state.votedFor
    leaderId := state.leaderId
    role := .follower
    stopped := false
    startedAt := now
    electionTimer := true }

/-! ### Handlers keep the identity of their node -/

omit [DecidableEq ι]

@[simp] theorem instanceId_becomeLeader : n.becomeLeader.node.instanceId = n.instanceId := by
  rw [becomeLeader]
  split <;> rfl

@[simp] theorem instanceId_stepDown (newTerm : ℕ) (newLeaderId : Option ι) :
    (n.stepDown newTerm newLeaderId).node.instanceId = n.instanceId := by
  rw [stepDown]
  split <;> rfl

@[simp] theorem instanceId_checkMajority (connected : ℕ) :
    (n.checkMajority connected).node.instanceId = n.instanceId := by
  simp only [checkMajority]
  split
  · rfl
  · split
    · exact n.instanceId_becomeLeader
    · rfl

@[simp] theorem instanceId_startElection (connected now : ℕ) :
    (n.startElection connected now).node.instanceId = n.instanceId := by
  simp only [startElection, Handled.andThen]
  split
  · rfl
  · split
    · split
      · rfl
      · simp [nextCandidacy]
    · split <;> simp [nextCandidacy, resetElectionTimer]

@[simp] theorem instanceId_handleAppendEntries (msg : RaftAppendEntries ι) :
    (n.handleAppendEntries msg).node.instanceId = n.instanceId := by
  simp only [handleAppendEntries]
  split
  · rfl
  · split
    · split <;> simp [resetElectionTimer]
    · rfl

@[simp] theorem instanceId_onPeerDisconnected (connected : ℕ) :
    (n.onPeerDisconnected connected).node.instanceId = n.instanceId := by
  rw [onPeerDisconnected]
  split <;> rfl

@[simp] theorem instanceId_stop : n.stop.node.instanceId = n.instanceId := by
  rw [stop]
  split <;> rfl

variable [DecidableEq ι]

@[simp] theorem instanceId_castVote (msg : RaftVoteRequest ι) :
    (n.castVote msg).node.instanceId = n.instanceId := by
  rw [castVote]
  split <;> rfl

@[simp] theorem instanceId_handleVoteRequest (msg : RaftVoteRequest ι) :
    (n.handleVoteRequest msg).1.node.instanceId = n.instanceId := by
  simp only [handleVoteRequest, Handled.andThen]
  split
  · rfl
  · rw [instanceId_castVote]
    split
    · exact n.instanceId_stepDown ..
    · rfl

@[simp] theorem instanceId_handleVoteResponse (msg : RaftVoteResponse ι) (connected : ℕ) :
    (n.handleVoteResponse msg connected).node.instanceId = n.instanceId := by
  simp only [handleVoteResponse, Handled.andThen]
  split
  · rfl
  · split
    · exact n.instanceId_stepDown ..
    · split
      · rfl
      · split <;> simp

@[simp] theorem instanceId_handlePeerLeaving (leaving : ι) (connected now : ℕ) :
    (n.handlePeerLeaving leaving connected now).node.instanceId = n.instanceId := by
  simp only [handlePeerLeaving, Handled.andThen]
  split
  · rfl
  · simp

end RaftNode

end Kici
