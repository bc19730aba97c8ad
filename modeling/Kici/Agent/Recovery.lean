import Kici.Foundation.Lists
import Kici.Foundation.System
import Kici.Queue.JobQueue

/-!
# How agents get their jobs back

The jobs of an agent that has disconnected recover for a while: the row of each says so, and the
coordinator keeps who the agent is, with a timer (`startRecovery`). An agent that comes back gets
its jobs again (`reconcileRecovery`); a job whose agent does not is failed, by the timer
(`handleRecoveryExpiry`) or by a sweep (`sweepExpiredRecoveries`), which any coordinator may run. A
coordinator that takes over reads which jobs recover (`recoverState`).

Any number of coordinators, `κ`, share the rows; each has its own memory. An operation is several
steps, one for each statement and one after it, where the call goes on; others take steps in
between.
-/

namespace Kici

open Function JobQueue

variable {κ : Type*}

structure RecoveringJob where
  agentId : String
  timer : ℕ

structure CompletedJob where
  agentId : String
  expiresAt : ℕ

/-- What a coordinator keeps of its jobs. -/
structure RecoveryMemory where
  agentJobs : String → List String := fun _ => []
  recoveringJobs : String → Option RecoveringJob := fun _ => none
  completedJobs : String → Option CompletedJob := fun _ => none

namespace RecoveryMemory

variable (m : RecoveryMemory) (now : ℕ) (agentId jobId : String)

/-- The agent has completed the job within the grace time. -/
def inGraceWindow : Bool :=
  (m.completedJobs jobId).any fun entry => entry.agentId = agentId ∧ now < entry.expiresAt

def isJobOwnedByAgent : Bool :=
  jobId ∈ m.agentJobs agentId || (m.recoveringJobs jobId).any (·.agentId = agentId) ||
    m.inGraceWindow now agentId jobId

def trackJobForAgent : RecoveryMemory :=
  { m with
    agentJobs := update m.agentJobs agentId
      (if jobId ∈ m.agentJobs agentId then m.agentJobs agentId else m.agentJobs agentId ++ [jobId]) }

def untrackJob : RecoveryMemory :=
  { m with agentJobs := update m.agentJobs agentId ((m.agentJobs agentId).filter (· ≠ jobId)) }

def setRecovering (entry : Option RecoveringJob) : RecoveryMemory :=
  { m with recoveringJobs := update m.recoveringJobs jobId entry }

/-- How long late messages of a job are accepted, in milliseconds. -/
def GRACE_WINDOW_MS : ℕ := 30000

def onJobComplete : RecoveryMemory :=
  { m.untrackJob agentId jobId with
    completedJobs := update m.completedJobs jobId (some ⟨agentId, now + GRACE_WINDOW_MS⟩) }

def forgetCompleted : RecoveryMemory :=
  { m with completedJobs := update m.completedJobs jobId none }

end RecoveryMemory

/-- A call that waits, of a coordinator: for its statement, or for its turn after it. -/
inductive RecoveryCall (κ : Type*)
  | markRecovering (c : κ) (agentId jobId : String) (deadline : ℕ)
  /-- The row is marked; the coordinator keeps the job. -/
  | setRecovering (c : κ) (agentId jobId : String)
  /-- The job is claimed back; its row is to say so. -/
  | reconcileRecovery (c : κ) (agentId jobId : String)
  | restoreJobForAgent (c : κ) (agentId jobId : String)
  /-- The time of the job is over; its row is to say so. -/
  | handleRecoveryExpiry (c : κ) (agentId jobId : String)
  | recoveryExpired (c : κ) (agentId jobId : String)
  /-- The rows that were selected are failed, if they still recover. -/
  | sweepExpiredRecoveries (c : κ) (rows : List DispatchRow)
  | recoveriesSwept (c : κ) (rows : List DispatchRow)
  /-- The rows that recover were read. -/
  | recoverState (c : κ) (rows : List DispatchRow)
  | markCompleted (jobId : String)

/-- The coordinator of a call; a completion is written even if its coordinator starts anew. -/
def RecoveryCall.coordinator? : RecoveryCall κ → Option κ
  | .markRecovering c .. | .setRecovering c .. | .reconcileRecovery c .. | .restoreJobForAgent c ..
  | .handleRecoveryExpiry c .. | .recoveryExpired c .. | .sweepExpiredRecoveries c _
  | .recoveriesSwept c _ | .recoverState c _ => some c
  | .markCompleted _ => none

structure RecoveryTimer (κ : Type*) where
  coordinator : κ
  timer : ℕ
  agentId : String
  jobId : String

/-- What `reconcileRecovery` has returned `true` for, and whether the job was dispatched to the
agent then. -/
structure Reclaimed where
  agentId : String
  jobId : String
  dispatched : Bool

/-- A coordinator has dealt with the failure of a job of an agent that has not come back. -/
structure ProcessedFailure (κ : Type*) where
  coordinator : κ
  agentId : String
  jobId : String
  deriving DecidableEq

/-- What a row says of the agent that its job has recovered for. -/
def recoveryOf (c : κ) (row : DispatchRow) : ProcessedFailure κ :=
  ⟨c, row.recoveryAgentId.getD "", row.id⟩

structure RecoveryState (κ : Type*) where
  db : Db
  memory : κ → RecoveryMemory
  timers : List (RecoveryTimer κ) := []
  /-- The number of timers so far. -/
  nextTimer : ℕ := 0
  calls : List (RecoveryCall κ) := []
  processed : List (ProcessedFailure κ) := []
  reclaimed : List Reclaimed := []

inductive RecoveryAction (κ : Type*)
  /-- An agent with the job has disconnected, or the job was found dispatched by a coordinator that
  is gone. -/
  | startRecovery (c : κ) (agentId jobId : String) (deadline : ℕ)
  | reconcileRecovery (c : κ) (agentId jobId : String)
  /-- A timer fires. -/
  | timer (k : ℕ)
  | sweepExpiredRecoveries (c : κ) (now : ℕ)
  | recoverState (c : κ)
  | onJobComplete (c : κ) (agentId jobId : String) (now : ℕ)
  | forgetCompleted (c : κ) (jobId : String)
  /-- The statement of a call runs, or it goes on. -/
  | next (k : ℕ) (now : ℕ)
  /-- A statement fails. -/
  | throws (k : ℕ)
  | restart (c : κ)

namespace RecoveryState

variable {κ : Type*} [DecidableEq κ] (queue : κ → JobQueue) (s : RecoveryState κ)

def write (u : DispatchUpdate) : RecoveryState κ := { s with db := s.db.update u }

def addCall (call : RecoveryCall κ) : RecoveryState κ := { s with calls := s.calls ++ [call] }

def setMemory (c : κ) (m : RecoveryMemory) : RecoveryState κ := { s with memory := update s.memory c m }

/-- Whether the row of the job is failed. -/
def isFailed (jobId : String) : Bool := (s.db.row? jobId).any (·.status = .failed)

/-- Whether the row of the job says that it recovers. -/
def isRecovering (jobId : String) : Bool := (s.db.row? jobId).any (·.status = .recovering)

/-- Whether the job is dispatched to the agent. -/
def isDispatchedTo (agentId jobId : String) : Bool :=
  (s.db.row? jobId).any fun r => r.status = .dispatched ∧ r.agentId = some agentId

def clearTimer (timer : ℕ) : RecoveryState κ := { s with timers := s.timers.filter (·.timer ≠ timer) }

/-- The coordinator keeps a job that recovers, with a new timer. -/
def setRecovering (c : κ) (agentId jobId : String) : RecoveryState κ :=
  { s.setMemory c ((s.memory c).setRecovering jobId (some ⟨agentId, s.nextTimer⟩)) with
    timers := s.timers ++ [⟨c, s.nextTimer, agentId, jobId⟩]
    nextTimer := s.nextTimer + 1 }

/-- The coordinator has dealt with the jobs of agents; of those that are failed it has dealt with
the failure. -/
def process (failures : List (ProcessedFailure κ)) : RecoveryState κ :=
  { s with processed := s.processed ++ failures.filter fun failure => s.isFailed failure.jobId }

/-- A job that recovers goes back to its agent, with its timer cleared. -/
def claimRecovery (c : κ) (agentId jobId : String) : Option (RecoveryState κ) :=
  match (s.memory c).recoveringJobs jobId with
  | some entry =>
    if entry.agentId = agentId then
      some ((s.clearTimer entry.timer).setMemory c ((s.memory c).setRecovering jobId none))
    else none
  | none => none

def reconcileRecovery (c : κ) (agentId jobId : String) : RecoveryState κ :=
  match s.claimRecovery c agentId jobId with
  | some t => t.addCall (.reconcileRecovery c agentId jobId)
  | none => s

/-- A timer has fired: the job is forgotten before its row is written. -/
def handleRecoveryExpiry (c : κ) (agentId jobId : String) : RecoveryState κ :=
  (s.setMemory c (((s.memory c).setRecovering jobId none).untrackJob agentId jobId)).addCall
    (.handleRecoveryExpiry c agentId jobId)

/-- A job that a sweep has selected is forgotten as one that recovers. -/
def dropRecovering (c : κ) (row : DispatchRow) : RecoveryState κ :=
  match (s.memory c).recoveringJobs row.id with
  | some entry => (s.clearTimer entry.timer).setMemory c ((s.memory c).setRecovering row.id none)
  | none => s

/-- A job that recovers in the database is kept, if its time is not over and it is not kept yet. -/
def rehydrate (c : κ) (now : ℕ) (row : DispatchRow) : RecoveryState κ :=
  match row.recoveryAgentId, row.recoveryDeadline with
  | some agentId, some deadline =>
    if now < deadline ∧ ((s.memory c).recoveringJobs row.id).isNone then s.setRecovering c
      agentId row.id else s
  | _, _ => s

/-- The state after the statement of a call, or after the call goes on, and the call then. -/
def callNext (now : ℕ) : RecoveryCall κ → RecoveryState κ × Option (RecoveryCall κ)
  | .markRecovering c agentId jobId deadline =>
    (s.write ((queue c).markRecovering s.db jobId (some deadline) (some agentId)),
      some (.setRecovering c agentId jobId))
  | .setRecovering c agentId jobId => (s.setRecovering c agentId jobId, none)
  | .reconcileRecovery c agentId jobId =>
    (s.write ((queue c).markDispatchedIfRecovering now jobId agentId),
      some (.restoreJobForAgent c agentId jobId))
  | .restoreJobForAgent c agentId jobId =>
    ({ s.setMemory c ((s.memory c).trackJobForAgent agentId jobId) with
      reclaimed := s.reclaimed ++ [⟨agentId, jobId, s.isDispatchedTo agentId jobId⟩] }, none)
  | .handleRecoveryExpiry c agentId jobId =>
    (s.write (markFailedIfRecovering jobId), some (.recoveryExpired c agentId jobId))
  | .recoveryExpired c agentId jobId => (s.process [⟨c, agentId, jobId⟩], none)
  | .sweepExpiredRecoveries c rows =>
    (s.write (sweepExpiredRecoveriesUpdate rows), some (.recoveriesSwept c rows))
  | .recoveriesSwept c rows =>
    ((rows.foldl (·.dropRecovering c ·) s).process (rows.map (recoveryOf c)), none)
  | .recoverState c rows => (rows.foldl (·.rehydrate c now ·) s, none)
  | .markCompleted jobId => (s.write (markCompleted jobId), none)

/-- A coordinator starts anew, without what it kept and the calls it had under way. -/
def restart (c : κ) : RecoveryState κ :=
  { s.setMemory c {} with
    timers := s.timers.filter (·.coordinator ≠ c)
    calls := s.calls.filter (·.coordinator? ≠ some c)
    processed := s.processed.filter (·.coordinator ≠ c) }

def step : RecoveryAction κ → Option (RecoveryState κ)
  | .startRecovery c agentId jobId deadline =>
    if jobId ∈ (s.memory c).agentJobs agentId ∨ (s.db.row? jobId).any (·.status = .dispatched) then
      some (s.addCall (.markRecovering c agentId jobId deadline))
    else none
  | .reconcileRecovery c agentId jobId => some (s.reconcileRecovery c agentId jobId)
  | .timer k => s.timers[k]?.map fun timer =>
    { s with timers := s.timers.eraseIdx k }.handleRecoveryExpiry timer.coordinator
      timer.agentId timer.jobId
  | .sweepExpiredRecoveries c now =>
    some (s.addCall (.sweepExpiredRecoveries c (sweepExpiredRecoveriesSelect s.db now)))
  | .recoverState c => some (s.addCall (.recoverState c ((queue c).getRecoveringJobs s.db)))
  | .onJobComplete c agentId jobId now =>
    some ((s.setMemory c ((s.memory c).onJobComplete now agentId jobId)).addCall (.markCompleted jobId))
  | .forgetCompleted c jobId => some (s.setMemory c ((s.memory c).forgetCompleted jobId))
  | .next k now => s.calls[k]?.map fun call =>
    let (t, next) := s.callNext queue now call
    { t with calls := t.calls.take k ++ next.toList ++ t.calls.drop (k + 1) }
  | .throws k => s.calls[k]?.map fun _ =>
    { s with calls := s.calls.take k ++ [] ++ s.calls.drop (k + 1) }
  | .restart c => some (s.restart c)

end RecoveryState

/-- Coordinators with the queues `queue`, to whose agents any jobs were handed at first. -/
def recoverySystem [DecidableEq κ] (queue : κ → JobQueue) :
    System (RecoveryState κ) (RecoveryAction κ) where
  init := {s | ∃ (db : Db) (agentJobs : κ → String → List String),
    s = { db, memory := fun c => { agentJobs := agentJobs c } }}
  step := RecoveryState.step queue

end Kici
