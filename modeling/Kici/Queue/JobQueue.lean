import Kici.Queue.DispatchQueue

/-!
# The statements of the job queue

The statements by which the operations of a coordinator on `dispatch_queue` read
and write it, each executed by the database as a whole; an update is a value
(`DispatchUpdate`). An operation is one statement, or several in turn.

The operations that read first and write later are two statements:
`markExpiredSelect` and `markExpiredUpdate`, `sweepExpiredRecoveriesSelect` and
`sweepExpiredRecoveriesUpdate`.
-/

namespace Kici

/-- A job queue: what a coordinator knows of itself, and of the jobs it put back
because it could not open their secrets, with the times it may claim them again. -/
structure JobQueue where
  instanceId : Option String := none
  ownershipGraceMs : ℕ := 0
  deferredUnopenable : List (String × ℕ) := []

/-- What callers give to enqueue or dispatch a job. -/
structure QueuedJobInput where
  jobId : String
  runId : String
  jobName : String
  runsOnLabels : List String := []
  runsOnPatterns : List LabelMatcher := []
  excludeLabels : List String := []
  excludePatterns : List LabelMatcher := []
  pinnedAgentId : Option String := none
  jobConfig : String := "{}"

namespace JobQueue

variable (js : JsRuntime) (q : JobQueue) (db : Db) (now : ℕ) (jobId : String)

def ownershipOptions : OwnershipPredicateOptions :=
  { instanceId := q.instanceId, graceMs := q.ownershipGraceMs }

/-- Whether the job is still in the back-off of this coordinator. -/
def isDeferredUnopenable : Bool := q.deferredUnopenable.any fun d => d.1 = jobId ∧ now < d.2

/-! ## Insertions -/

/-- The row of a new job, with its exact labels in canonical form. -/
def rowOf (job : QueuedJobInput) (status : DispatchQueueStatus) : DispatchRow where
  id := job.jobId
  runId := job.runId
  jobName := job.jobName
  runsOnLabels := js.canonicalizeLabels job.runsOnLabels
  runsOnPatterns := job.runsOnPatterns
  excludeLabels := js.canonicalizeLabels job.excludeLabels
  excludePatterns := job.excludePatterns
  pinnedAgentId := job.pinnedAgentId
  jobConfig := job.jobConfig
  status
  createdAt := now

/-- The insertion of a queued job, to expire after `timeoutMs` unless that is `0`. -/
def enqueue (job : QueuedJobInput) (timeoutMs : ℕ) : Db :=
  db.insert { rowOf js now job .pending with
    expiresAt := if 0 < timeoutMs then some (now + timeoutMs) else none }

/-- The insertion of a job that is dispatched at once. -/
def insertDispatched (job : QueuedJobInput) (agentId : String) : Db :=
  db.insert { rowOf js now job .dispatched with
    agentId := some agentId
    ownerInstanceId := q.instanceId
    dispatchedAt := some now }

/-! ## Claims -/

/-- The column writes of a claim; without an agent, the column of the agent stays. -/
def claimTransition (agentId : Option String) (r : DispatchRow) : DispatchRow :=
  { r with
    status := .dispatched
    lastProvisioningError := none
    ownerInstanceId := q.instanceId
    dispatchedAt := some now
    agentId := agentId.or r.agentId }

def claimRowById (agentId : Option String) : DispatchUpdate where
  guard r := r.id = jobId ∧ r.status = .pending
  set := q.claimTransition now agentId

/-- Claim a pending job for no agent. -/
def claimUnopenableById : DispatchUpdate where
  guard r := q.isDeferredUnopenable now jobId = false ∧ r.id = jobId ∧ r.status = .pending ∧
    (∀ expiresAt ∈ r.expiresAt, db.now ≤ expiresAt) ∧ db.notTerminalRun r
  set := q.claimTransition now none

/-! ## Transitions -/

/-- Expire a dispatched row whose run has stopped. -/
def expireDispatchOfStoppedRun : DispatchUpdate where
  guard r := r.id = jobId ∧ r.status = .dispatched ∧ db.notTerminalRun r = false
  set r := { r with
    status := .expired
    agentId := none
    ownerInstanceId := none
    dispatchedAt := none }

def markDispatched (agentId : String) : DispatchUpdate where
  guard r := r.id = jobId
  set r := { r with
    status := .dispatched
    lastProvisioningError := none
    agentId := some agentId
    ownerInstanceId := q.instanceId
    dispatchedAt := some now }

def markFailed : DispatchUpdate where
  guard r := r.id = jobId
  set r := { r with status := .failed }

def markCompleted : DispatchUpdate where
  guard r := r.id = jobId ∧ r.status ∈ [DispatchQueueStatus.dispatched, .recovering]
  set r := { r with status := .completed }

/-- The pending rows that have timed out. -/
def markExpiredSelect : List DispatchRow :=
  db.dispatchQueue.rows.filter fun r => r.status = .pending ∧ ∃ expiresAt ∈ r.expiresAt, expiresAt < now

/-- Expire the rows selected before. -/
def markExpiredUpdate (rows : List DispatchRow) : DispatchUpdate where
  guard r := r.id ∈ rows.map DispatchRow.id
  set r := { r with status := .expired }

def failByRunId (runId : String) : DispatchUpdate where
  guard r := r.runId = runId ∧ r.status ∈ [DispatchQueueStatus.pending, .recovering, .dispatched]
  set r := { r with status := .failed }

/-- Cancel what of a run is pending, awaits its acknowledgement, or recovers. -/
def cancelByRunId (runId : String) : DispatchUpdate where
  guard r := r.runId = runId ∧ (r.status = .pending ∨
    r.status = .dispatched ∧ r.ackDeadline.isSome ∨ r.status = .recovering)
  set r := { r with status := .expired }

def markRecovering (deadline : Option ℕ) (agentId : Option String) : DispatchUpdate where
  guard r := r.id = jobId ∧ r.status = .dispatched ∧ q.ownershipOptions.writableByOwner db r
  set r := { r with
    status := .recovering
    recoveryDeadline := deadline.or r.recoveryDeadline
    recoveryAgentId := agentId.or r.recoveryAgentId }

def setAckDeadline (deadline : ℕ) (agentId : String) : DispatchUpdate where
  guard r := r.id = jobId ∧ r.status = .dispatched
  set r := { r with ackDeadline := some deadline, ackAgentId := some agentId }

def clearAckDeadline : DispatchUpdate where
  guard r := r.id = jobId
  set r := { r with ackDeadline := none, ackAgentId := none }

/-- The recovering rows whose recovery has timed out. -/
def sweepExpiredRecoveriesSelect : List DispatchRow :=
  db.dispatchQueue.rows.filter fun r =>
    r.status = .recovering ∧ ∃ deadline ∈ r.recoveryDeadline, deadline < now

/-- Fail the rows selected before. -/
def sweepExpiredRecoveriesUpdate (rows : List DispatchRow) : DispatchUpdate where
  guard r := r.id ∈ rows.map DispatchRow.id ∧ r.status = .recovering
  set r := { r with status := .failed }

def markFailedIfRecovering : DispatchUpdate where
  guard r := r.id = jobId ∧ r.status = .recovering
  set r := { r with status := .failed }

/-- A row put back on the queue. -/
def putBack (r : DispatchRow) (increment : ℕ) : DispatchRow :=
  { r with
    status := .pending
    dispatchAttempts := r.dispatchAttempts + increment
    ackDeadline := none
    ackAgentId := none
    agentId := none
    ownerInstanceId := none
    dispatchedAt := none
    unroutableSince := none }

def requeue (countAttempt : Bool) (provisioningError : Option String) : DispatchUpdate where
  guard r := r.id = jobId ∧ r.status = .dispatched ∧ db.notTerminalRun r
  set r := { putBack r (if countAttempt then 1 else 0) with
    lastProvisioningError := provisioningError.or r.lastProvisioningError }

/-- Requeue a dispatch whose acknowledgement never landed. -/
def requeueIfAwaitingAck (expectedAgentId : Option String) : DispatchUpdate where
  guard r := r.id = jobId ∧ r.status = .dispatched ∧ r.ackDeadline.isSome ∧
    db.notTerminalRun r ∧ r.ackAgentId = expectedAgentId
  set r := putBack r 1

/-- Dispatch a recovering job again, to the agent that claims it back. -/
def markDispatchedIfRecovering (agentId : String) : DispatchUpdate where
  guard r := r.id = jobId ∧ r.status = .recovering
  set r := { r with
    status := .dispatched
    recoveryDeadline := none
    recoveryAgentId := none
    ackDeadline := none
    ackAgentId := none
    agentId := some agentId
    ownerInstanceId := q.instanceId
    dispatchedAt := some now }

/-- Claim a pending row to fail it, as no agent can run it. -/
def claimUnroutable : DispatchUpdate where
  guard r := r.id = jobId ∧ r.status = .pending
  set r := { r with status := .expired }

/-! ## Reads -/

/-- The dispatched rows a coordinator may recover when it boots. -/
def getOrphanedDispatchedJobs : List DispatchRow :=
  db.dispatchQueue.rows.filter fun r =>
    r.status = .dispatched ∧ q.ownershipOptions.recoverableByOwner db r

def getRecoveringJobs : List DispatchRow :=
  db.dispatchQueue.rows.filter fun r =>
    r.status = .recovering ∧ q.ownershipOptions.recoverableByOwner db r

/-- Whether the agent holds or held the job. -/
def hasAgentOwnedJob (agentId : String) : Bool :=
  match db.row? jobId with
  | none => false
  | some row =>
    if row.status = .dispatched ∧ row.agentId = some agentId then true
    else if row.status = .recovering ∧ row.recoveryAgentId = some agentId then true
    -- Late messages of an agent are accepted once the row is terminal.
    else row.status = .completed ∨ row.status = .failed ∨ row.status = .expired

end JobQueue

end Kici
