import Kici.Foundation.Lists
import Kici.Foundation.System
import Kici.Queue.JobQueue

/-!
# How jobs are failed for good

A coordinator fails a job for good when it was put back on the queue too often (`finishRequeue`),
when nobody can open its secrets (`releaseUnopenableDispatch`), when its agent has not come back
(`handleRecoveryExpiry`, `sweepExpiredRecoveries`), or when the job is needed no more
(`cancelQueuedJob`). Each decides on a state of the row, writes the row in a statement, and then
tells it (`onJobFailedPermanently`).

Any number of coordinators share the queue, and each statement is executed as a whole. Drains claim
jobs for agents meanwhile, and agents that come back claim theirs. A claim of a drain is
`claimRowById` here: the other statements of drains claim a job that is pending on more conditions.
-/

namespace Kici

open JobQueue

/-- How often a job is put back on the queue. -/
def MAX_DISPATCH_ATTEMPTS : ℕ := 5

/-- A call that waits for its statement. The state that the call has decided on is that of the step
`decidedAt`. -/
inductive FailureCall
  /-- A job was claimed for an agent, which is to be written to its row. -/
  | markDispatched (agentId jobId : String) (claimedAt : ℕ)
  /-- The job is sent to its agent. -/
  | deliver (jobId : String) (claimedAt : ℕ)
  /-- Whether there are other coordinators is asked, as the secrets of the job cannot be opened
  here. -/
  | releaseUnopenableDispatch (jobId : String) (decidedAt : ℕ)
  /-- A job that was dispatched is put back, with an error if its secrets cannot be opened. -/
  | requeue (jobId : String) (countAttempt : Bool) (provisioningError : Option String)
  | requeueIfAwaitingAck (jobId : String) (expectedAgentId : Option String)
  | settleClaimOfStoppedRun (jobId : String)
  | markFailed (jobId : String) (decidedAt : ℕ)
  | handleRecoveryExpiry (jobId : String)
  /-- The rows that were selected are failed, if they still recover. -/
  | sweepExpiredRecoveries (rows : List DispatchRow) (decidedAt : ℕ)
  | cancelQueuedJob (jobId : String) (decidedAt : ℕ)
  /-- The jobs have been failed, which is to be told. -/
  | onJobFailedPermanently (jobIds : List String) (decidedAt : ℕ)

/-- A job whose row was failed, or of which it was told, with the time at which an agent has last
claimed it. -/
structure Failure where
  jobId : String
  decidedAt : ℕ
  claimedAt : Option ℕ

structure FailureState where
  /-- The number of steps so far. -/
  clock : ℕ := 0
  db : Db
  calls : List FailureCall := []
  /-- When an agent has last claimed a job. -/
  claimedAt : String → Option ℕ := fun _ => none
  failures : List Failure := []

/-- A statement of others. -/
inductive OtherWrite
  | claimUnroutable (jobId : String)
  | markCompleted (jobId : String)
  | markExpired (rows : List DispatchRow)
  | failByRunId (runId : String)
  | cancelByRunId (runId : String)
  | expireDispatchOfStoppedRun (jobId : String)
  | markRecovering (jobId : String) (deadline : Option ℕ) (agentId : Option String)
  | setAckDeadline (jobId : String) (deadline : ℕ) (agentId : String)
  | clearAckDeadline (jobId : String)

def OtherWrite.update (q : JobQueue) (db : Db) : OtherWrite → DispatchUpdate
  | .claimUnroutable jobId => JobQueue.claimUnroutable jobId
  | .markCompleted jobId => JobQueue.markCompleted jobId
  | .markExpired rows => markExpiredUpdate rows
  | .failByRunId runId => JobQueue.failByRunId runId
  | .cancelByRunId runId => JobQueue.cancelByRunId runId
  | .expireDispatchOfStoppedRun jobId => JobQueue.expireDispatchOfStoppedRun db jobId
  | .markRecovering jobId deadline agentId => q.markRecovering db jobId deadline agentId
  | .setAckDeadline jobId deadline agentId => JobQueue.setAckDeadline jobId deadline agentId
  | .clearAckDeadline jobId => JobQueue.clearAckDeadline jobId

/-- The answers that are not of the database. -/
inductive FailureAnswer
  /-- The statement of the call runs. -/
  | run (q : JobQueue) (now : ℕ)
  | sent
  /-- The secrets of the job cannot be opened. -/
  | secretsUnavailable
  | hasPeerCoordinators (peers : Bool) (reason : String)
  /-- The statement fails, or the coordinator is gone. -/
  | throws

inductive FailureAction
  /-- A drain claims a job for an agent. -/
  | claim (q : JobQueue) (now : ℕ) (agentId jobId : String)
  /-- A new job is dispatched at once. -/
  | insertDispatched (js : JsRuntime) (q : JobQueue) (now : ℕ) (job : QueuedJobInput) (agentId : String)
  | enqueue (js : JsRuntime) (now : ℕ) (job : QueuedJobInput) (timeoutMs : ℕ)
  /-- An agent that has come back claims a job that recovers. -/
  | markDispatchedIfRecovering (q : JobQueue) (now : ℕ) (agentId jobId : String)
  /-- A job whose secrets cannot be opened is claimed for no agent. -/
  | settleUnopenablePending (q : JobQueue) (now : ℕ) (jobId : String)
  | requeueOrFail (jobId : String) (countAttempt : Bool)
  | requeueIfAwaitingAck (jobId : String) (expectedAgentId : Option String)
  | handleRecoveryExpiry (jobId : String)
  | sweepExpiredRecoveries (now : ℕ)
  /-- A job that waits is needed no more. -/
  | cancelQueuedJob (jobId : String)
  | next (k : ℕ) (answer : FailureAnswer)
  | write (q : JobQueue) (w : OtherWrite)
  /-- Runs and heartbeats are others, and time goes by. -/
  | setRuns (executionRuns : List (String × ExecutionRunStatus))
    (clusterInstances : List (String × ℕ)) (now : ℕ)

namespace FailureState

variable (s : FailureState)

def write (u : DispatchUpdate) : FailureState := { s with db := s.db.update u }

/-- Whether a statement changes a row. -/
def changes (u : DispatchUpdate) : Bool := !(s.db.dispatchQueue.returning u).isEmpty

def addCall (call : FailureCall) : FailureState := { s with calls := s.calls ++ [call] }

/-- Jobs are failed, or it is told that they are. -/
def fail (jobIds : List String) (decidedAt : ℕ) : FailureState :=
  { s with failures := s.failures ++ jobIds.map fun jobId => {
      jobId
      decidedAt
      claimedAt := s.claimedAt jobId } }

/-- A job was put back, unless the statement has changed no row: it is failed if that was too often,
and offered to other agents if not. -/
def finishRequeue (jobId : String) (requeued : List DispatchRow) : Option FailureCall :=
  match requeued with
  | r :: _ => if MAX_DISPATCH_ATTEMPTS ≤ r.dispatchAttempts then some (.markFailed jobId s.clock)
    else none
  | [] => none

/-- The state after a call is answered, and the call then. -/
def callNext : FailureCall → FailureAnswer → Option (FailureState × Option FailureCall)
  | _, .throws => some (s, none)
  | .markDispatched agentId jobId claimedAt, .run q now =>
    some (s.write (q.markDispatched now jobId agentId), some (.deliver jobId claimedAt))
  | .deliver _ _, .sent => some (s, none)
  | .deliver jobId claimedAt, .secretsUnavailable =>
    some (s, some (.releaseUnopenableDispatch jobId claimedAt))
  | .releaseUnopenableDispatch jobId decidedAt, .hasPeerCoordinators peers reason =>
    some (s, some (if peers then .requeue jobId true (some reason) else .markFailed jobId decidedAt))
  | .requeue jobId countAttempt provisioningError, .run _ _ =>
    let u := requeue s.db jobId countAttempt provisioningError
    some (s.write u,
      if provisioningError.isSome && !s.changes u then some (.settleClaimOfStoppedRun jobId)
      else s.finishRequeue jobId (s.db.dispatchQueue.returning u))
  | .requeueIfAwaitingAck jobId expectedAgentId, .run _ _ =>
    let u := requeueIfAwaitingAck s.db jobId expectedAgentId
    some (s.write u, s.finishRequeue jobId (s.db.dispatchQueue.returning u))
  | .settleClaimOfStoppedRun jobId, .run _ _ =>
    some (s.write (expireDispatchOfStoppedRun s.db jobId), none)
  | .markFailed jobId decidedAt, .run _ _ =>
    some ((s.write (markFailed jobId)).fail [jobId] decidedAt,
      some (.onJobFailedPermanently [jobId] decidedAt))
  | .handleRecoveryExpiry jobId, .run _ _ =>
    let u := markFailedIfRecovering jobId
    if s.changes u then
      some ((s.write u).fail [jobId] s.clock, some (.onJobFailedPermanently [jobId] s.clock))
    else some (s, none)
  | .sweepExpiredRecoveries rows decidedAt, .run _ _ =>
    let u := sweepExpiredRecoveriesUpdate rows
    some ((s.write u).fail ((s.db.dispatchQueue.returning u).map DispatchRow.id) decidedAt,
      some (.onJobFailedPermanently (rows.map DispatchRow.id) decidedAt))
  | .cancelQueuedJob jobId decidedAt, .run _ _ =>
    some ((s.write (markFailed jobId)).fail [jobId] decidedAt, none)
  | .onJobFailedPermanently jobIds decidedAt, .sent => some (s.fail jobIds decidedAt, none)
  | _, _ => none

/-- The job that an agent claims with a step. -/
def claims : FailureAction → Option String
  | .claim q now agentId jobId =>
    if s.changes (q.claimRowById now jobId (some agentId)) then some jobId else none
  | .insertDispatched _ _ _ job _ => if (s.db.row? job.jobId).isNone then some job.jobId else none
  | .markDispatchedIfRecovering q now agentId jobId =>
    if s.changes (q.markDispatchedIfRecovering now jobId agentId) then some jobId else none
  | _ => none

/-- The step of an action, but for the clock and the claims. -/
def act : FailureAction → Option FailureState
  | .claim q now agentId jobId =>
    let u := q.claimRowById now jobId (some agentId)
    some (if s.changes u then (s.write u).addCall (.markDispatched agentId jobId s.clock) else s)
  | .insertDispatched js q now job agentId =>
    some (if (s.db.row? job.jobId).isNone then
      { s with db := q.insertDispatched js s.db now job agentId }.addCall (.deliver job.jobId s.clock)
        else s)
  | .enqueue js now job timeoutMs => some { s with db := enqueue js s.db now job timeoutMs }
  | .markDispatchedIfRecovering q now agentId jobId =>
    some (s.write (q.markDispatchedIfRecovering now jobId agentId))
  | .settleUnopenablePending q now jobId =>
    let u := q.claimUnopenableById s.db now jobId
    some (if s.changes u then (s.write u).addCall (.releaseUnopenableDispatch jobId s.clock) else s)
  | .requeueOrFail jobId countAttempt => some (s.addCall (.requeue jobId countAttempt none))
  | .requeueIfAwaitingAck jobId expectedAgentId =>
    some (s.addCall (.requeueIfAwaitingAck jobId expectedAgentId))
  | .handleRecoveryExpiry jobId => some (s.addCall (.handleRecoveryExpiry jobId))
  | .sweepExpiredRecoveries now =>
    some (s.addCall (.sweepExpiredRecoveries (sweepExpiredRecoveriesSelect s.db now) s.clock))
  | .cancelQueuedJob jobId => some (s.addCall (.cancelQueuedJob jobId s.clock))
  | .next k answer => do
    let call ← s.calls[k]?
    let (t, next) ← s.callNext call answer
    return { t with calls := t.calls.take k ++ next.toList ++ t.calls.drop (k + 1) }
  | .write q w => some (s.write (w.update q s.db))
  | .setRuns executionRuns clusterInstances now =>
    some { s with db := { s.db with
      executionRuns
      clusterInstances
      now } }

def step (a : FailureAction) : Option FailureState :=
  (s.act a).map fun t => { t with
    clock := s.clock + 1
    claimedAt := fun jobId => if s.claims a = some jobId then some s.clock else s.claimedAt jobId }

end FailureState

/-- Any number of coordinators, with any rows in their queue at first. -/
def failureSystem : System FailureState FailureAction where
  init := {s | ∃ db, s = { db }}
  step := FailureState.step

end Kici
