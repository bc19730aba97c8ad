import Kici.Execution.Status
import Kici.Foundation.Table

/-!
# Concurrency groups

`concurrency: { group, max }` lets at most `max` runs into a group at a time. A row of
`concurrency_groups` is a run in a group, waiting (`queued`) or holding a slot
(`active`). A run holds at most one slot of a group (`holdsSlot`, a unique index of the
table).

Each definition below is one transaction; those that decide about slots run under an
advisory lock of the group, so that they exclude each other.

* `acquireSlot`: the only transaction that compares the slots held with `max`;
* `dequeueNext`: gives a slot to the oldest run that waits, for a slot that was given up
  in another transaction;
* `onJobComplete`: gives up a slot and hands it on.
-/

namespace Kici

inductive ConcurrencySlotStatus
  | active
  | queued
  | completed
  | cancelled
  deriving DecidableEq

/-- A row of `concurrency_groups`. -/
structure ConcurrencyGroup where
  id : String
  groupKey : String
  runId : String
  jobId : String
  routingKey : String
  status : ConcurrencySlotStatus
  createdAt : ℕ

/-- A job that was given a slot. -/
structure QueuedConcurrencyJob where
  id : String
  groupKey : String
  routingKey : String
  runId : String
  jobId : String

structure EnqueueOptions where
  groupKey : String
  routingKey : String
  runId : String
  jobId : String

/-- The row in the group, with the status. -/
def ConcurrencyGroup.isIn (groupKey routingKey : String) (status : ConcurrencySlotStatus)
    (row : ConcurrencyGroup) : Bool :=
  row.groupKey = groupKey ∧ row.routingKey = routingKey ∧ row.status = status

structure ConcurrencyDb where
  groups : Table ConcurrencyGroup.id
  /-- The recorded runs with their statuses. -/
  executionRuns : List (String × ExecutionRunStatus)

namespace ConcurrencyDb

variable (db : ConcurrencyDb) (groupKey routingKey runId : String)

/-- Whether the run is over. -/
def finished : Bool :=
  db.executionRuns.any fun er => er.1 = runId ∧ er.2 ∈ TERMINAL_RUN_STATES

/-- Whether the run holds a slot of the group. -/
def holdsSlot : Bool :=
  db.groups.rows.any fun row => row.isIn groupKey routingKey .active && row.runId = runId

/-- The database after an update of the groups. -/
def update (u : Update ConcurrencyGroup.id) : ConcurrencyDb :=
  { db with groups := db.groups.execute u }

/-- The database after an insertion; the id is one no row has. -/
def insert (row : ConcurrencyGroup) : ConcurrencyDb :=
  { db with groups := db.groups.insertNew row }

end ConcurrencyDb

namespace ConcurrencyQueueManager

variable (order : OrderBy ConcurrencyGroup.createdAt) (db : ConcurrencyDb)
  (groupKey routingKey runId : String)

/-- Give up the slots of some rows. -/
def complete (guard : ConcurrencyGroup → Bool) : Update ConcurrencyGroup.id where
  guard
  set row := { row with status := .completed }

/-- The runs that hold a slot, oldest first, and the database afterwards: a run that is over
gives up its slot. -/
def activeRunIds : List String × ConcurrencyDb :=
  let rows := order.sort (db.groups.rows.filter (·.isIn groupKey routingKey .active))
  let leaked := rows.filter fun row => db.finished row.runId
  ((rows.filter fun row => !db.finished row.runId).map (·.runId),
    db.update (complete fun row => row.id ∈ leaked.map (·.id)))

/-- Take a slot, unless there is none left; whether the run holds one afterwards. -/
def acquireSlot (jobId : String) (max : ℕ) (id : String) (now : ℕ) : Bool × ConcurrencyDb :=
  if db.holdsSlot groupKey routingKey runId then (true, db)
  else
    let (active, db') := activeRunIds order db groupKey routingKey
    if max ≤ active.length then (false, db')
    else
      (true, db'.insert {
        id
        groupKey
        runId
        jobId
        routingKey
        status := .active
        createdAt := now })

/-- Give up the slot, when a job finishes. -/
def markCompleted : ConcurrencyDb :=
  db.update (complete fun row => row.runId = runId && row.isIn groupKey routingKey .active)

def releaseSlot : ConcurrencyDb := markCompleted db groupKey routingKey runId

def getActiveRuns : List String × ConcurrencyDb := activeRunIds order db groupKey routingKey

def enqueue (opts : EnqueueOptions) (id : String) (now : ℕ) : ConcurrencyDb :=
  db.insert {
    id
    groupKey := opts.groupKey
    runId := opts.runId
    jobId := opts.jobId
    routingKey := opts.routingKey
    status := .queued
    createdAt := now }

/-- The row of the run that waits longest. -/
def oldestQueued : Option ConcurrencyGroup :=
  (order.sort (db.groups.rows.filter (·.isIn groupKey routingKey .queued))).head?

/-- Make a row active. -/
def promote (id : String) : Update ConcurrencyGroup.id where
  guard row := row.id = id
  set row := { row with status := .active }

/-- Give a slot to the run that waits longest, whatever slots are held; `none` if the run
holds one already, which the unique index forbids. -/
def promoteOldestQueued : Option (Option QueuedConcurrencyJob × ConcurrencyDb) :=
  match oldestQueued order db groupKey routingKey with
  | none => some (none, db)
  | some row =>
    if db.holdsSlot groupKey routingKey row.runId then none
    else
      some (
        some {
          id := row.id
          groupKey := row.groupKey
          routingKey := row.routingKey
          runId := row.runId
          jobId := row.jobId },
        db.update (promote row.id))

def dequeueNext : Option (Option QueuedConcurrencyJob × ConcurrencyDb) :=
  promoteOldestQueued order db groupKey routingKey

def cancelQueued : ConcurrencyDb :=
  db.update {
    guard := fun row => row.runId = runId ∧ row.status = .queued
    set := fun row => { row with status := .cancelled } }

/-- Give up the slot and hand it on in one transaction. -/
def onJobComplete : Option (Option QueuedConcurrencyJob × ConcurrencyDb) :=
  promoteOldestQueued order (markCompleted db groupKey routingKey runId) groupKey routingKey

end ConcurrencyQueueManager

end Kici
