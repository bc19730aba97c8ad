import Kici.Cluster.Raft
import Kici.Foundation.System

/-!
# Clusters of Raft nodes

The coordinators `ι` of a cluster, the messages between them, the one shared
`raft_state` row, and its statements in flight. A message stays in the network for
ever: it may be delivered late, in any order, several times, or never. A save is
executed by the database at any later time, in any order, or fails; a start reads
the row, and takes what it read over only later. A process may crash, which
leaves a fresh node that has not started yet, while the saves of the old one are
still in flight.

Whom a node voted for, and in which terms a node took the leadership without a
majority, is read off the log (`Cluster.GaveVote`, `Cluster.ForcedIn`).
-/

namespace Kici

open RaftStateStore Function

variable {ι : Type*}

/-! ## Clusters and their steps -/

/-- A message of `src`, to one peer or (`none`) to all of them. -/
structure Envelope (ι : Type*) where
  src : ι
  dst : Option ι
  msg : RaftMessage ι
  deriving DecidableEq

/-- A statement on the shared row in flight. -/
inductive SaveCall (ι : Type*)
  | save (state : RaftPersistentState ι)
  | saveUnlessNewerTerm (state : RaftPersistentState ι)

/-- The row once the statement was executed. -/
def SaveCall.execute (row : Option (RaftPersistentState ι)) :
    SaveCall ι → Option (RaftPersistentState ι)
  | save state => RaftStateStore.save row state
  | saveUnlessNewerTerm state => RaftStateStore.saveUnlessNewerTerm row state

/-- How far the start of a node has got. -/
inductive Starting (ι : Type*)
  | idle
  | loading
  | loaded (state : RaftPersistentState ι)
  deriving DecidableEq

structure Cluster (ι : Type*) where
  nodes : ι → RaftNode ι
  /-- The shared row. -/
  row : Option (RaftPersistentState ι)
  saving : List (SaveCall ι)
  starting : ι → Starting ι
  /-- The nodes whose process crashed and has not completed its start. -/
  rebooting : ι → Bool
  network : List (Envelope ι)
  /-- What the nodes logged, in order. -/
  log : List (ι × LogEvent ι)

inductive RaftAction (ι : Type*)
  | electionTimeout (i : ι) (connected now : ℕ)
  | deliver (e : Envelope ι) (i : ι) (connected : ℕ)
  | peerLeaving (i leaving : ι) (connected now : ℕ)
  | peerDisconnected (i : ι) (connected : ℕ)
  | heartbeat (i : ι)
  /-- The database executes a save in flight. -/
  | persist (k : ℕ)
  /-- A save in flight fails. -/
  | loseSave (k : ℕ)
  | stop (i : ι)
  | startCall (i : ι)
  /-- The database executes the load of a start. -/
  | readRow (i : ι)
  | startResume (i : ι) (now : ℕ)
  | crash (i : ι)

namespace RaftEffect

def saveCall? : RaftEffect ι → Option (SaveCall ι)
  | save state => some (.save state)
  | saveUnlessNewerTerm state => some (.saveUnlessNewerTerm state)
  | _ => none

/-- A broadcast of `i` goes to all its peers. -/
def envelope? (i : ι) : RaftEffect ι → Option (Envelope ι)
  | broadcast msg => some ⟨i, none, msg⟩
  | _ => none

def logged? (i : ι) : RaftEffect ι → Option (ι × LogEvent ι)
  | log event => some (i, event)
  | _ => none

end RaftEffect

variable [DecidableEq ι]

/-- The cluster once `i` handled an input. -/
def Cluster.perform (c : Cluster ι) (i : ι) (h : Handled ι) : Cluster ι :=
  { c with
    nodes := update c.nodes i h.node
    saving := c.saving ++ h.effects.filterMap RaftEffect.saveCall?
    network := c.network ++ h.effects.filterMap (RaftEffect.envelope? i)
    log := c.log ++ h.effects.filterMap (RaftEffect.logged? i) }

/-- The message reaches `i`; the answer to a vote request goes back to its sender. -/
def Cluster.receive (c : Cluster ι) (e : Envelope ι) (i : ι) (connected : ℕ) : Cluster ι :=
  match e.msg with
  | .voteRequest msg =>
    let answered := (c.nodes i).handleVoteRequest msg
    let c' := c.perform i answered.1
    { c' with network := c'.network ++ [⟨i, some e.src, .voteResponse answered.2⟩] }
  | .voteResponse msg => c.perform i ((c.nodes i).handleVoteResponse msg connected)
  | .appendEntries msg => c.perform i ((c.nodes i).handleAppendEntries msg)

/-- Whether the message is addressed to `i`. -/
def Envelope.reaches (e : Envelope ι) (i : ι) : Bool :=
  e.dst = some i ∨ (e.dst = none ∧ e.src ≠ i)

def Cluster.step (c : Cluster ι) : RaftAction ι → Option (Cluster ι)
  | .electionTimeout i connected now =>
    if (c.nodes i).electionTimer then
      some (c.perform i ({ c.nodes i with electionTimer := false }.startElection connected now))
    else none
  | .deliver e i connected =>
    if e ∈ c.network ∧ e.reaches i then some (c.receive e i connected) else none
  | .peerLeaving i leaving connected now =>
    some (c.perform i ((c.nodes i).handlePeerLeaving leaving connected now))
  | .peerDisconnected i connected => some (c.perform i ((c.nodes i).onPeerDisconnected connected))
  | .heartbeat i =>
    if (c.nodes i).leaderHeartbeatTimer then some (c.perform i (c.nodes i).sendHeartbeat) else none
  | .persist k => c.saving[k]?.map fun call =>
      { c with row := call.execute c.row, saving := c.saving.eraseIdx k }
  | .loseSave k => c.saving[k]?.map fun _ => { c with saving := c.saving.eraseIdx k }
  | .stop i => some (c.perform i (c.nodes i).stop)
  | .startCall i =>
    if c.starting i = .idle then some { c with starting := update c.starting i .loading }
    else none
  | .readRow i =>
    if c.starting i = .loading then
      some { c with starting := update c.starting i (.loaded (load c.row)) }
    else none
  | .startResume i now =>
    match c.starting i with
    | .loaded state => some { c with
        nodes := update c.nodes i ((c.nodes i).resume state now)
        starting := update c.starting i .idle
        rebooting := update c.rebooting i false }
    | _ => none
  | .crash i => some { c with
      nodes := update c.nodes i { instanceId := i, gracePeriodMs := (c.nodes i).gracePeriodMs }
      starting := update c.starting i .idle
      rebooting := update c.rebooting i true }

theorem Cluster.log_subset_perform (c : Cluster ι) (i : ι) (h : Handled ι) :
    c.log ⊆ (c.perform i h).log := List.subset_append_left _ _

/-- What was logged stays logged. -/
theorem Cluster.log_subset_of_step {c c' : Cluster ι} {a : RaftAction ι}
    (h : c.step a = some c') : c.log ⊆ c'.log := by
  unfold Cluster.step at h
  cases a with
  | electionTimeout | heartbeat =>
    obtain ⟨-, ⟨⟩⟩ := Option.ite_none_right_eq_some.1 h
    exact c.log_subset_perform ..
  | deliver e i connected =>
    obtain ⟨-, ⟨⟩⟩ := Option.ite_none_right_eq_some.1 h
    rw [Cluster.receive]
    split <;> exact c.log_subset_perform ..
  | peerLeaving | peerDisconnected | stop =>
    cases h
    exact c.log_subset_perform ..
  | persist | loseSave =>
    obtain ⟨_, _, rfl⟩ := Option.map_eq_some_iff.1 h
    exact List.Subset.refl _
  | startCall | readRow =>
    obtain ⟨-, ⟨⟩⟩ := Option.ite_none_right_eq_some.1 h
    exact List.Subset.refl _
  | startResume =>
    simp only at h
    split at h <;> cases h
    exact List.Subset.refl _
  | crash =>
    cases h
    exact List.Subset.refl _

/-- A cluster none of whose nodes has started: nothing was sent or logged, and
nothing is in flight, but the row may hold the state of an earlier cluster. -/
def Cluster.IsFresh (c : Cluster ι) : Prop :=
  (∀ i, ∃ gracePeriodMs, c.nodes i = { instanceId := i, gracePeriodMs }) ∧
    c.saving = [] ∧ (∀ i, c.starting i = .idle) ∧ (∀ i, c.rebooting i = false) ∧
    c.network = [] ∧ c.log = []

/-- The coordinators `ι` as a transition system. -/
def raftSystem (ι : Type*) [DecidableEq ι] : System (Cluster ι) (RaftAction ι) where
  init := {c | c.IsFresh}
  step := Cluster.step

/-! ## Votes and leaders -/

omit [DecidableEq ι] in
/-- `i` gave its vote in the term to `k`: by starting an election, or by granting it. -/
def Cluster.GaveVote (c : Cluster ι) (i : ι) (term : ℕ) (k : ι) : Prop :=
  (i, .startingElection term) ∈ c.log ∧ k = i ∨ (i, .voteGranted k term) ∈ c.log

/-- Some node took the leadership of the term by the safety valve. -/
def Cluster.ForcedIn (c : Cluster ι) (term : ℕ) : Prop :=
  ∃ i, (i, .forcingSelfElection term) ∈ c.log

end Kici
