import Kici.Execution.Status
import Kici.Foundation.Table
import Kici.Labels.Match

/-!
# The dispatch queue

The rows of `dispatch_queue`, the two other tables its statements read (the runs,
and the heartbeats of the coordinators), and the predicates those statements share:

* `Db.notTerminalRun`: the run of a row has not stopped;
* `OwnershipPredicateOptions.recoverableByOwner`, `.writableByOwner`: which rows a
  coordinator may take over, and which it may write.

Times are in milliseconds. The database has a clock (`Db.now`), each coordinator
its own, which its statements take as an argument.
-/

namespace Kici

/-- The status of a row. `cancelled` is not written any more, but stands in rows of
existing databases. -/
inductive DispatchQueueStatus
  | pending
  | dispatched
  | completed
  | failed
  | expired
  | recovering
  | cancelled
  deriving DecidableEq

/-- The statuses a row never leaves. -/
def TERMINAL_DISPATCH_STATUSES : List DispatchQueueStatus :=
  [.completed, .failed, .expired, .cancelled]

structure DispatchRow where
  id : String
  runId : String
  jobName : String
  runsOnLabels : List String := []
  runsOnPatterns : List LabelMatcher := []
  excludeLabels : List String := []
  excludePatterns : List LabelMatcher := []
  pinnedAgentId : Option String := none
  jobConfig : String := "{}"
  status : DispatchQueueStatus
  createdAt : ℕ
  expiresAt : Option ℕ := none
  lastProvisioningError : Option String := none
  unroutableSince : Option ℕ := none
  dispatchAttempts : ℕ := 0
  /-- The agent the job was handed to. -/
  agentId : Option String := none
  /-- The coordinator that dispatched the job. -/
  ownerInstanceId : Option String := none
  dispatchedAt : Option ℕ := none
  ackDeadline : Option ℕ := none
  ackAgentId : Option String := none
  recoveryDeadline : Option ℕ := none
  recoveryAgentId : Option String := none
  deriving DecidableEq

/-- An update of `dispatch_queue`. -/
abbrev DispatchUpdate := Update DispatchRow.id

structure Db where
  dispatchQueue : Table DispatchRow.id
  /-- The recorded runs with their statuses. -/
  executionRuns : List (String × ExecutionRunStatus)
  /-- The coordinators with their last heartbeats. -/
  clusterInstances : List (String × ℕ)
  now : ℕ

namespace Db

variable (db : Db)

/-- The row of a job. -/
def row? (jobId : String) : Option DispatchRow := db.dispatchQueue.lookup jobId

/-- The database after an update of the queue. -/
def update (u : DispatchUpdate) : Db := { db with dispatchQueue := db.dispatchQueue.execute u }

/-- The database after an insertion, which leaves an existing row of the job alone. -/
def insert (r : DispatchRow) : Db :=
  { db with dispatchQueue := db.dispatchQueue.insertNew r }

/-- Whether the row's run has not stopped; a run that is not recorded has not. -/
def notTerminalRun (r : DispatchRow) : Bool :=
  !db.executionRuns.any fun er =>
    er.1 = r.runId ∧ er.2 ∈ TERMINAL_RUN_STATES ++ [ExecutionRunStatus.cancelling]

/-- Whether the owner has no heartbeat within the grace time. -/
def ownerNotLive (graceMs : ℕ) (owner : Option String) : Bool :=
  !db.clusterInstances.any fun ci => some ci.1 = owner ∧ db.now < ci.2 + graceMs

end Db

structure OwnershipPredicateOptions where
  instanceId : Option String
  graceMs : ℕ
  livePeerIds : List String := []

namespace OwnershipPredicateOptions

variable (opts : OwnershipPredicateOptions) (db : Db) (r : DispatchRow)

/-- Whether the owner is this instance, a connected peer, or has a live heartbeat. -/
def ownerIsLive : Bool :=
  r.ownerInstanceId ∈ (opts.instanceId.toList ++ opts.livePeerIds).map some ∨
    db.ownerNotLive opts.graceMs r.ownerInstanceId = false

/-- Strict selection: a row of this instance, or of a dead one. -/
def recoverableByOwner : Bool :=
  r.ownerInstanceId.isSome ∧
    (opts.instanceId.isSome ∧ r.ownerInstanceId = opts.instanceId ∨
      db.ownerNotLive opts.graceMs r.ownerInstanceId)

/-- Permissive guard: not a row of another live instance. -/
def writableByOwner : Bool :=
  r.ownerInstanceId = none ∨ opts.ownerIsLive db r = false ∨
    opts.instanceId.isSome ∧ r.ownerInstanceId = opts.instanceId

end OwnershipPredicateOptions

end Kici
