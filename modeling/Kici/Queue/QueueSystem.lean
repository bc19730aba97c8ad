import Kici.Foundation.System
import Kici.Queue.Drain

/-!
# Coordinators at the queue

The runs of any number of coordinators on one database. Each step executes one
statement, or changes what the statements read from outside the queue. Between its
statements an operation is a call in flight (`QueueCall`), which any statements of
others may overtake, or which never continues, as its coordinator crashed.

Of the memory of the coordinators the state keeps, for all of them together, which
jobs they track to which agents, the recovery timers, and the jobs a booting
coordinator found; a step of any of them may use it. The log records, for ever, who
was handed a job and what each sweep returned.
-/

namespace Kici

open DispatchRow

/-- An operation between its statements. -/
inductive QueueCall
  /-- A claimed job is about to be marked dispatched and sent. -/
  | dispatching (jobId agentId : String)
  | markExpired (rows : List DispatchRow)
  | sweepExpiredRecoveries (rows : List DispatchRow)

/-- What happened to jobs. -/
inductive QueueEvent
  | claimed (jobId : String)
  /-- The job was dispatched to the agent. -/
  | handed (jobId agentId : String)
  /-- The agent got the recovering job back. -/
  | reclaimed (jobId agentId : String)
  /-- A sweep returned the one jobs, and moved the others to their new status. -/
  | swept (returned moved : List String)
  deriving DecidableEq

structure QueueState where
  db : Db
  calls : List QueueCall := []
  /-- The jobs some coordinator tracks to an agent. -/
  tracked : List (String × String) := []
  /-- The jobs some coordinator has a recovery timer for, with the agent it waits for. -/
  recovering : List (String × String) := []
  /-- The dispatched jobs a booting coordinator found, with the agents of their rows. -/
  orphans : List (String × Option String) := []
  log : List QueueEvent := []

inductive QueueAction
  | enqueue (now : ℕ) (job : QueuedJobInput) (timeoutMs : ℕ)
  | insertDispatched (q : JobQueue) (now : ℕ) (job : QueuedJobInput) (agentId : String)
  | settleClaimOfStoppedRun (jobId : String)
  | claimPatternFree (q : JobQueue) (now : ℕ) (agent : AgentQuery)
  | claimRowById (q : JobQueue) (now : ℕ) (jobId : String) (agentId : Option String)
  | claimUnopenableById (q : JobQueue) (now : ℕ) (jobId : String)
  | markDispatched (q : JobQueue) (now : ℕ) (k : ℕ)
  | markFailed (jobId : String)
  | markCompleted (jobId : String)
  | markExpiredSelect (now : ℕ)
  | markExpiredUpdate (k : ℕ)
  | failByRunId (runId : String)
  | cancelByRunId (runId : String)
  /-- An agent disconnected, and a job tracked to it starts to recover. -/
  | startRecoveryForDisconnect (q : JobQueue) (jobId agentId : String) (deadline : ℕ)
  | setAckDeadline (jobId : String) (deadline : ℕ) (agentId : String)
  | clearAckDeadline (jobId : String)
  | sweepExpiredRecoveriesSelect (now : ℕ)
  | sweepExpiredRecoveriesUpdate (k : ℕ)
  | markFailedIfRecovering (jobId : String)
  | requeue (jobId : String) (countAttempt : Bool) (provisioningError : Option String)
  | requeueIfAwaitingAck (jobId : String) (expectedAgentId : Option String)
  | reconcileRecovery (q : JobQueue) (now : ℕ) (jobId agentId : String)
  | claimUnroutable (jobId : String)
  /-- A booting coordinator reads the orphaned jobs. -/
  | readOrphans (q : JobQueue)
  /-- A booting coordinator starts to recover an orphaned job. -/
  | startRecoveryTimer (q : JobQueue) (jobId : String) (agentId : Option String) (deadline : ℕ)
  /-- A booting coordinator takes the recovering jobs over. -/
  | recoverState (q : JobQueue) (now : ℕ)
  | setRunStatus (runId : String) (status : ExecutionRunStatus)
  | heartbeat (instanceId : String) (at_ : ℕ)
  | tick (now : ℕ)

namespace QueueState

variable (s : QueueState)

/-- The state once an update was executed. -/
def write (u : DispatchUpdate) : QueueState := { s with db := s.db.update u }

/-- The state once a claim was executed, for an agent or for none. -/
def claim (u : DispatchUpdate) (agentId : Option String) : QueueState :=
  let claimed := (s.db.dispatchQueue.returning u).map DispatchRow.id
  { s.write u with
    calls := s.calls ++ claimed.flatMap fun j => agentId.toList.map (.dispatching j)
    log := s.log ++ claimed.flatMap fun j => .claimed j :: agentId.toList.map (.handed j) }

/-- The jobs the update moves to another status. -/
def movedBy (u : DispatchUpdate) : List String :=
  (s.db.dispatchQueue.rows.filter fun r => u.guard r ∧ (u.set r).status ≠ r.status).map
    DispatchRow.id

/-- The state once a sweep executed its update and returned the rows selected before. -/
def sweep (k : ℕ) (rows : List DispatchRow) (u : DispatchUpdate) : QueueState :=
  { s.write u with
    calls := s.calls.eraseIdx k
    log := s.log ++ [.swept (rows.map DispatchRow.id) (s.movedBy u)] }

/-- The state once a job tracked to an agent starts to recover. -/
def startRecovery (q : JobQueue) (jobId agentId : String) (deadline : ℕ) : QueueState :=
  { s.write (q.markRecovering s.db jobId (some deadline) (some agentId)) with
    recovering := s.recovering ++ [(jobId, agentId)] }

/-- Whether a job was dispatched to an agent. -/
def WasHanded (jobId agentId : String) : Prop :=
  .handed jobId agentId ∈ s.log ∨ .reclaimed jobId agentId ∈ s.log

end QueueState

namespace QueueState

variable (js : JsRuntime) (order : OrderBy createdAt) (s : QueueState)

open JobQueue in
def step : QueueAction → Option QueueState
  | .enqueue now job timeoutMs => some { s with db := enqueue js s.db now job timeoutMs }
  | .insertDispatched q now job agentId =>
    if (s.db.row? job.jobId).isSome then some s
    else some { s with
      db := insertDispatched js q s.db now job agentId
      tracked := s.tracked ++ [(job.jobId, agentId)]
      log := s.log ++ [.handed job.jobId agentId] }
  | .settleClaimOfStoppedRun jobId => some (s.write (expireDispatchOfStoppedRun s.db jobId))
  | .claimPatternFree q now agent =>
    some (s.claim (claimPatternFree js q order s.db now agent) agent.agentId)
  | .claimRowById q now jobId agentId => some (s.claim (q.claimRowById now jobId agentId) agentId)
  | .claimUnopenableById q now jobId => some (s.claim (q.claimUnopenableById s.db now jobId) none)
  | .markDispatched q now k =>
    match s.calls[k]? with
    | some (.dispatching jobId agentId) => some { s.write (q.markDispatched now jobId agentId) with
        calls := s.calls.eraseIdx k
        tracked := s.tracked ++ [(jobId, agentId)] }
    | _ => none
  | .markFailed jobId => some (s.write (markFailed jobId))
  | .markCompleted jobId => some (s.write (markCompleted jobId))
  | .markExpiredSelect now =>
    some { s with calls := s.calls ++ [.markExpired (markExpiredSelect s.db now)] }
  | .markExpiredUpdate k =>
    match s.calls[k]? with
    | some (.markExpired rows) => some (s.sweep k rows (markExpiredUpdate rows))
    | _ => none
  | .failByRunId runId => some (s.write (failByRunId runId))
  | .cancelByRunId runId => some (s.write (cancelByRunId runId))
  | .startRecoveryForDisconnect q jobId agentId deadline =>
    if (jobId, agentId) ∈ s.tracked then some (s.startRecovery q jobId agentId deadline) else none
  | .setAckDeadline jobId deadline agentId =>
    some (s.write (setAckDeadline jobId deadline agentId))
  | .clearAckDeadline jobId => some (s.write (clearAckDeadline jobId))
  | .sweepExpiredRecoveriesSelect now =>
    some { s with
      calls := s.calls ++ [.sweepExpiredRecoveries (sweepExpiredRecoveriesSelect s.db now)] }
  | .sweepExpiredRecoveriesUpdate k =>
    match s.calls[k]? with
    | some (.sweepExpiredRecoveries rows) => some (s.sweep k rows (sweepExpiredRecoveriesUpdate rows))
    | _ => none
  | .markFailedIfRecovering jobId => some (s.write (markFailedIfRecovering jobId))
  | .requeue jobId countAttempt provisioningError =>
    some (s.write (requeue s.db jobId countAttempt provisioningError))
  | .requeueIfAwaitingAck jobId expectedAgentId =>
    some (s.write (requeueIfAwaitingAck s.db jobId expectedAgentId))
  | .reconcileRecovery q now jobId agentId =>
    if (jobId, agentId) ∈ s.recovering then
      let u := q.markDispatchedIfRecovering now jobId agentId
      some { s.write u with
        recovering := s.recovering.erase (jobId, agentId)
        tracked := s.tracked ++ [(jobId, agentId)]
        log := s.log ++ (s.db.dispatchQueue.returning u).map fun _ => .reclaimed jobId agentId }
    else none
  | .claimUnroutable jobId => some (s.write (claimUnroutable jobId))
  | .readOrphans q => some { s with
      orphans := s.orphans ++ (q.getOrphanedDispatchedJobs s.db).map fun r => (r.id, r.agentId) }
  | .startRecoveryTimer q jobId agentId deadline =>
    if (jobId, agentId) ∈ s.orphans then
      some (s.startRecovery q jobId (agentId.getD "unknown") deadline)
    else none
  | .recoverState q now => some { s with
      recovering := s.recovering ++
        ((q.getRecoveringJobs s.db).filter fun r => ∃ deadline ∈ r.recoveryDeadline,
          now < deadline).flatMap
          fun r => (r.recoveryAgentId.filter (· ≠ "")).toList.map (r.id, ·) }
  | .setRunStatus runId status => some { s with db := { s.db with
      executionRuns := (runId, status) :: s.db.executionRuns.filter fun er => er.1 ≠ runId } }
  | .heartbeat instanceId at_ => some { s with db := { s.db with
      clusterInstances := (instanceId, at_) ::
        s.db.clusterInstances.filter fun ci => ci.1 ≠ instanceId } }
  | .tick now => some { s with db := { s.db with now } }

end QueueState

/-- The coordinators as a transition system, on an empty queue at first. -/
def queueSystem (js : JsRuntime) (order : OrderBy createdAt) :
    System QueueState QueueAction where
  init := {s | s.db.dispatchQueue = Table.empty DispatchRow.id ∧ s.calls = [] ∧ s.tracked = [] ∧
    s.recovering = [] ∧ s.orphans = [] ∧ s.log = []}
  step := QueueState.step js order

/-! ## Running the system -/

/-- Rows by `created_at`, those created at the same time in the order of the table. -/
def createdAtOrder : OrderBy createdAt where
  sort := List.insertionSort fun r s => r.createdAt ≤ s.createdAt
  perm _ := List.perm_insertionSort ..
  sorted rows := by
    have : Std.Total fun r s : DispatchRow => r.createdAt ≤ s.createdAt := ⟨fun _ _ => Nat.le_total ..⟩
    have : IsTrans DispatchRow fun r s => r.createdAt ≤ s.createdAt := ⟨fun _ _ _ => Nat.le_trans⟩
    exact List.pairwise_insertionSort _ rows

/-- The runtime as far as it goes for labels that are trimmed and lowercase already, and
for expressions of letters. -/
def lowercaseRuntime : JsRuntime where
  trim s := s
  toLowerCase s := s
  regExp source _ :=
    if source.toList.all Char.isAlpha then
      some fun s => s.toList.tails.any source.toList.isPrefixOf
    else none

/-- A queue without rows. -/
def emptyQueue : QueueState where
  db := {
    dispatchQueue := Table.empty DispatchRow.id
    executionRuns := []
    clusterInstances := []
    now := 0 }

theorem emptyQueue_mem_init (js : JsRuntime) (order : OrderBy createdAt) :
    emptyQueue ∈ (queueSystem js order).init := ⟨rfl, rfl, rfl, rfl, rfl, rfl⟩

/-- A job of the run `run`, for any agent. -/
def anyAgentJob : QueuedJobInput where
  jobId := "job"
  runId := "run"
  jobName := "build"

/-- The queue system, run on lowercase labels. -/
abbrev lowercaseQueueSystem : System QueueState QueueAction :=
  queueSystem lowercaseRuntime createdAtOrder

end Kici
