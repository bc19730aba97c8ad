import Kici.Foundation.Lists
import Kici.Foundation.System
import Kici.Js.LiveSet
import Kici.Queue.JobQueue

/-!
# Disconnects of an agent

When an agent that is no scaler's disconnects, its jobs are marked as recovering one by one
(`startRecoveryForDisconnect`): the coordinator walks the set of the agent's jobs, and for each
reads its row, has it marked, and keeps the job with a timer. The set is the one that the
coordinator keeps, not a copy. While the triage waits, the agent may come back, get its jobs again,
finish them, and be handed new ones.

The model is of one agent, and of the coordinator it is connected to. A set of jobs is dropped when
it has become empty, and the next job starts a new one, while a triage goes on with the old one; so
that sets have places of their own here (`sets`). Everything else that changes rows is a step of its
own (`setDb`).

The state also says what has happened to jobs (`events`), and which jobs the triages have moved to
recovering (`moved`): those whose rows they marked, and those they kept with a timer.
-/

namespace Kici

/-- What happens to a job. -/
inductive JobEvent
  | finished
  | reclaimed
  | dispatched
  deriving DecidableEq

/-- A walk through the jobs of the agent. -/
structure Triage where
  /-- The place of the set that is walked. -/
  jobIds : ℕ
  position : ℕ
  deadline : ℕ
  /-- The jobs of the agent when the disconnect began; nothing reads them. -/
  trackedAtBegin : LiveSet String
  /-- The number of events until then; nothing reads it. -/
  eventsAtBegin : ℕ

/-- A call that waits: for its statement, or for its turn. -/
inductive TriageCall
  /-- Whether the agent is to reboot is being read. -/
  | onAgentDisconnect (t : Triage)
  | getJobById (t : Triage) (jobId : String)
  | markRecovering (t : Triage) (jobId : String)
  /-- The row is marked; the coordinator keeps the job, and goes on. -/
  | setRecovering (t : Triage) (jobId : String)
  | reconcileRecovery (jobId : String)
  | restoreJobForAgent (jobId : String)
  /-- A job that was claimed for the agent. -/
  | markDispatched (jobId : String)
  | trackJobForAgent (jobId : String)

def TriageCall.triage? : TriageCall → Option Triage
  | .onAgentDisconnect t | .getJobById t _ | .markRecovering t _ | .setRecovering t _ => some t
  | _ => none

/-- A job that a triage has moved to recovering: whether it was the agent's when the disconnect
began, and what has happened to it since. -/
structure MovedJob where
  jobId : String
  tracked : Bool
  since : List JobEvent

structure TriageState where
  db : Db
  /-- The sets of jobs of the agent. -/
  sets : List (LiveSet String) := []
  /-- The place of the set the agent has, if it has jobs. -/
  agentJobs : Option ℕ := none
  recoveringJobs : List String := []
  calls : List TriageCall := []
  events : List (JobEvent × String) := []
  moved : List MovedJob := []

inductive TriageAction
  | onAgentDisconnect (deadline : ℕ)
  | reconcileRecovery (jobId : String)
  /-- A job from the queue is claimed for the agent. -/
  | claim (now : ℕ) (jobId : String)
  /-- A new job is given to the agent. -/
  | insertDispatched (now : ℕ) (job : QueuedJobInput)
  | onJobComplete (jobId : String)
  /-- The job is rejected, cannot be sent, or is not acknowledged in time. -/
  | untrackJob (jobId : String)
  /-- The job is kept as recovering. -/
  | recover (jobId : String)
  /-- The time of a job that recovers is over. -/
  | handleRecoveryExpiry (jobId : String)
  /-- The statement of a call runs, or it goes on. -/
  | next (k now : ℕ) (rebootPending : Bool)
  /-- A statement fails. -/
  | throws (k : ℕ)
  | setDb (db : Db)

/-- What a row that gets the status says of its job. -/
def JobEvent.ofStatus (status : DispatchQueueStatus) : Option JobEvent :=
  if status = .dispatched then some .dispatched
  else if status ∈ TERMINAL_DISPATCH_STATUSES then some .finished
  else none

namespace TriageState

variable (js : JsRuntime) (queue : JobQueue) (agentId : String) (s : TriageState)

/-- The set at a place. -/
def setAt (place : ℕ) : LiveSet String := (s.sets[place]?).getD {}

/-- Whether an update changes a row. -/
def changes (u : DispatchUpdate) : Bool := !(s.db.dispatchQueue.returning u).isEmpty

def write (u : DispatchUpdate) : TriageState := { s with db := s.db.update u }

def addCall (call : TriageCall) : TriageState := { s with calls := s.calls ++ [call] }

def trackJobForAgent (jobId : String) : TriageState :=
  match s.agentJobs with
  | some place => { s with sets := s.sets.modify place (·.add jobId) }
  | none => { s with
      sets := s.sets ++ [LiveSet.add {} jobId]
      agentJobs := some s.sets.length }

/-- The job is deleted from the set, which is dropped if it was the last one. -/
def untrackJob (jobId : String) : TriageState :=
  match s.agentJobs with
  | some place =>
    { s with
      sets := s.sets.modify place (·.delete jobId)
      agentJobs := if ((s.setAt place).delete jobId).isEmpty then none else some place }
  | none => s

def setRecovering (jobId : String) : TriageState :=
  { s with recoveringJobs := jobId :: s.recoveringJobs }

def deleteRecovering (jobId : String) : TriageState :=
  { s with recoveringJobs := s.recoveringJobs.filter (· ≠ jobId) }

/-- The triage goes on with the next job, if there is one. -/
def advance (t : Triage) : Option TriageCall :=
  ((s.setAt t.jobIds).nextFrom t.position).map fun (position, jobId) =>
    .getJobById { t with position } jobId

/-- The triage of the jobs in the set at a place. -/
def beginTriage (place deadline : ℕ) : Triage where
  jobIds := place
  position := 0
  deadline
  trackedAtBegin := s.setAt place
  eventsAtBegin := s.events.length

def onAgentDisconnect (deadline : ℕ) : TriageState :=
  match s.agentJobs with
  | some place => s.addCall (.onAgentDisconnect (s.beginTriage place deadline))
  | none => s

/-- The statement with which a triage marks the row of a job. -/
def markRecovering (t : Triage) (jobId : String) : DispatchUpdate :=
  queue.markRecovering s.db jobId (some t.deadline) (some agentId)

/-- The state after the statement of a call, or after the call goes on, and the call then. -/
def callNext (now : ℕ) (rebootPending : Bool) : TriageCall → TriageState × Option TriageCall
  -- The jobs of an agent that reboots are completed, those of a copy of the set.
  | .onAgentDisconnect t => (s, if rebootPending then none else s.advance t)
  | .getJobById t jobId => (s, some (.markRecovering t jobId))
  | .markRecovering t jobId =>
    (s.write (s.markRecovering queue agentId t jobId), some (.setRecovering t jobId))
  | .setRecovering t jobId => (s.setRecovering jobId, s.advance { t with position := t.position + 1 })
  | .reconcileRecovery jobId =>
    (s.write (queue.markDispatchedIfRecovering now jobId agentId), some (.restoreJobForAgent jobId))
  | .restoreJobForAgent jobId => (s.trackJobForAgent jobId, none)
  | .markDispatched jobId =>
    (s.write (queue.markDispatched now jobId agentId), some (.trackJobForAgent jobId))
  | .trackJobForAgent jobId => (s.trackJobForAgent jobId, none)

/-- The state after a step, but for what it says of jobs. -/
def after : TriageAction → Option TriageState
  | .onAgentDisconnect deadline => some (s.onAgentDisconnect deadline)
  | .reconcileRecovery jobId =>
    if jobId ∈ s.recoveringJobs then some
      ((s.deleteRecovering jobId).addCall (.reconcileRecovery jobId)) else some s
  | .claim now jobId =>
    let u := queue.claimRowById now jobId (some agentId)
    if s.changes u then some ((s.write u).addCall (.markDispatched jobId)) else some s
  | .insertDispatched now job =>
    if (s.db.row? job.jobId).isNone then
      some ({ s with db := queue.insertDispatched js s.db now job agentId }.addCall
        (.trackJobForAgent job.jobId))
    else some s
  | .onJobComplete jobId | .untrackJob jobId => some (s.untrackJob jobId)
  | .recover jobId => some (s.setRecovering jobId)
  | .handleRecoveryExpiry jobId => some ((s.deleteRecovering jobId).untrackJob jobId)
  | .next k now rebootPending => s.calls[k]?.map fun call =>
    let (t, next) := s.callNext queue agentId now rebootPending call
    { t with calls := t.calls.take k ++ next.toList ++ t.calls.drop (k + 1) }
  | .throws k => s.calls[k]?.map fun _ =>
    { s with calls := s.calls.take k ++ [] ++ s.calls.drop (k + 1) }
  | .setDb db => some { s with db }

/-! ## What steps do to jobs -/

/-- What happens to jobs whose rows get another status. -/
def rowEvents (db : Db) : List (JobEvent × String) :=
  db.dispatchQueue.rows.filterMap fun r =>
    if s.db.dispatchQueue.rows.any fun old => old.id = r.id ∧ old.status = r.status then none
    else (JobEvent.ofStatus r.status).map fun event => (event, r.id)

/-- What a call does to jobs as it goes on. -/
def callEvents : TriageCall → List (JobEvent × String)
  | .reconcileRecovery jobId | .restoreJobForAgent jobId => [(.reclaimed, jobId)]
  | .markDispatched jobId | .trackJobForAgent jobId => [(.dispatched, jobId)]
  | _ => []

/-- What happens to jobs with a step. -/
def happens : TriageAction → List (JobEvent × String)
  | .claim now jobId =>
    if s.changes (queue.claimRowById now jobId (some agentId)) then [(.dispatched, jobId)] else []
  | .insertDispatched _ job => if (s.db.row? job.jobId).isNone then [(.dispatched, job.jobId)] else []
  | .onJobComplete jobId => [(.finished, jobId)]
  | .next k _ _ => (s.calls[k]?).elim [] callEvents
  | .setDb db => s.rowEvents db
  | _ => []

/-- The job that a call moves to recovering as it goes on. -/
def callMoves : TriageCall → Option (Triage × String)
  | .markRecovering t jobId =>
    if s.changes (s.markRecovering queue agentId t jobId) then some (t, jobId) else none
  | .setRecovering t jobId => some (t, jobId)
  | _ => none

/-- The job that a step moves to recovering. -/
def moves : TriageAction → Option (Triage × String)
  | .next k _ _ => (s.calls[k]?).bind (s.callMoves queue agentId)
  | _ => none

/-- What is told of a job that a triage moves. -/
def movedJob (m : Triage × String) : MovedJob where
  jobId := m.2
  tracked := m.2 ∈ m.1.trackedAtBegin
  since := ((s.events.drop m.1.eventsAtBegin).filter (·.2 = m.2)).map (·.1)

def step (a : TriageAction) : Option TriageState :=
  (s.after js queue agentId a).map fun t => { t with
    events := s.events ++ s.happens queue agentId a
    moved := s.moved ++ ((s.moves queue agentId a).map s.movedJob).toList }

end TriageState

/-- A coordinator with the queue `queue`, and the agent `agentId`, that has no jobs at first. -/
def triageSystem (js : JsRuntime) (queue : JobQueue) (agentId : String) :
    System TriageState TriageAction where
  init := {s | ∃ db : Db, s = { db }}
  step := TriageState.step js queue agentId

end Kici
