import Kici.Foundation.Index
import Kici.Agent.Recovery

/-!
# Which jobs are on which agents

The dispatcher keeps the jobs of each agent, the agent of each job and the run of each job
(`Dispatcher`), and changes the three by hand: a job is tracked for an agent (`trackJobForAgent`),
and is taken from one when it is put back, when it completes, or when the timer fires that gives its
agent time to come back. Some of these ask whether the job is on the agent (`releaseTrackedClaim`);
most take the job from whatever agent it is on.

A timer outlives what it was started for: only the last one of a job is kept, to be cleared, and a
job that recovers is not taken from its agent, so that it can be dispatched to another one in the
meantime. A step that tracks a job for an agent, or takes it from one, should find it on no other
agent (`keepsOwner`).

Slots and acknowledgements, which the same functions change, are left to modules of their own.
-/

namespace Kici

open Function

/-- What is kept of a job whose agent has time to come back. -/
structure RecoveryEntry where
  agentId : String
  runId : String
  timer : ℕ

/-- A timer that is to fire. -/
structure ExpiryTimer where
  timer : ℕ
  agentId : String
  jobId : String

/-- A job that has completed, for late messages. -/
structure GraceEntry where
  jobId : String
  agentId : String
  expiresAt : ℕ

/-- What a dispatcher keeps of its jobs. An agent without jobs has no entry among the jobs of
agents. -/
structure Dispatcher where
  agentJobs : Index String String := fun _ => []
  jobToAgent : String → Option String := fun _ => none
  jobRunIds : String → Option String := fun _ => none
  startedJobs : String → Bool := fun _ => false
  recoveringJobs : String → Option RecoveryEntry := fun _ => none
  completedJobs : Table GraceEntry.jobId := .empty _
  timers : List ExpiryTimer := []
  /-- The number of timers so far. -/
  nextTimer : ℕ := 0

inductive TrackingAction
  | trackJobForAgent (agentId jobId runId : String)
  | untrackJob (agentId jobId : String)
  | releaseTrackedClaim (agentId jobId : String)
  | onJobComplete (agentId jobId : String) (now : ℕ)
  | markJobStarted (jobId : String)
  /-- The agent of the job has disconnected, or the job was found dispatched at the start; its row
  says so. -/
  | startRecoveryTimer (jobId agentId runId : String)
  | claimRecovery (jobId agentId : String)
  /-- A job that was claimed back has its row again. -/
  | restoreJobForAgent (agentId jobId : String) (runId : Option String)
  | recoverState (rows : List DispatchRow) (now : ℕ)
  /-- A timer fires. -/
  | timer (k : ℕ)
  /-- The rows of these jobs were failed. -/
  | sweepExpiredRecoveries (expired : List DispatchRow)
  | cleanupExpiredGraceEntries (now : ℕ)
  | cleanupGraceEntriesForAgent (agentId : String)
  | stopRecoveryTimers

namespace Dispatcher

/-- How many completed jobs are kept. -/
def COMPLETED_JOBS_CAP : ℕ := 10000

def GRACE_WINDOW_MS : ℕ := 30000

variable (d : Dispatcher) (agentId jobId runId : String) (now : ℕ)

/-- The job is on the agent. -/
def isTracked : Bool := jobId ∈ d.agentJobs agentId

def getAgentIdForJob : Option String := d.jobToAgent jobId

/-- The run of a job, for the agent that the job is on. -/
def resolveOwnedJob : Option String :=
  if d.isTracked agentId jobId then (d.jobRunIds jobId).filter (· ≠ "") else none

def trackJobForAgent : Dispatcher :=
  { d with
    jobToAgent := update d.jobToAgent jobId (some agentId)
    jobRunIds := update d.jobRunIds jobId (some runId)
    agentJobs := d.agentJobs.insert [agentId] jobId }

def untrackJob : Dispatcher :=
  { d with
    jobToAgent := update d.jobToAgent jobId none
    jobRunIds := update d.jobRunIds jobId none
    startedJobs := update d.startedJobs jobId false
    agentJobs := d.agentJobs.erase [agentId] jobId }

/-- Take the job from the agent, unless it is on another one. -/
def releaseTrackedClaim : Dispatcher :=
  if d.jobToAgent jobId ≠ some agentId then d else d.untrackJob agentId jobId

/-- Keep a completed job, and forget the first of too many. -/
def keepCompleted (entry : GraceEntry) : Dispatcher :=
  let completedJobs := d.completedJobs.put entry
  match completedJobs.rows with
  | oldest :: _ =>
    if COMPLETED_JOBS_CAP < completedJobs.rows.length then
      -- a map keeps its keys in the order in which they came
      { d with completedJobs := completedJobs.delete oldest.jobId }
    else { d with completedJobs }
  | [] => { d with completedJobs }

def onJobComplete : Dispatcher :=
  { d with
    jobToAgent := update d.jobToAgent jobId none
    jobRunIds := update d.jobRunIds jobId none
    startedJobs := update d.startedJobs jobId false
    agentJobs := d.agentJobs.erase [agentId] jobId }.keepCompleted
      ⟨jobId, agentId, now + GRACE_WINDOW_MS⟩

def markJobStarted : Dispatcher :=
  match d.jobToAgent jobId with
  | none => d
  | some _ => { d with startedJobs := update d.startedJobs jobId true }

def clearTimeout (timer : ℕ) : Dispatcher := { d with timers := d.timers.filter (·.timer ≠ timer) }

/-- Keep a job that recovers, with a new timer; that of the entry in its place goes on. -/
def startRecoveryTimer : Dispatcher :=
  { d with
    timers := d.timers ++ [⟨d.nextTimer, agentId, jobId⟩]
    nextTimer := d.nextTimer + 1
    recoveringJobs := update d.recoveringJobs jobId (some ⟨agentId, runId, d.nextTimer⟩) }

/-- Forget a job that recovers, with its timer. -/
def dropRecovering : Dispatcher :=
  match d.recoveringJobs jobId with
  | some entry =>
    { d.clearTimeout entry.timer with recoveringJobs := update d.recoveringJobs jobId none }
  | none => d

def claimRecovery : Dispatcher :=
  match d.recoveringJobs jobId with
  | some entry => if entry.agentId ≠ agentId then d else d.dropRecovering jobId
  | none => d

def restoreJobForAgent (runId : Option String) : Dispatcher :=
  let d := d.trackJobForAgent agentId jobId ((runId <|> d.jobRunIds jobId).getD "")
  { d with startedJobs := update d.startedJobs jobId true }

/-- A row that recovers gets its timer again, if its time is not over and it has none. -/
def rehydrate (row : DispatchRow) : Dispatcher :=
  match row.recoveryAgentId, row.recoveryDeadline with
  | some agentId, some deadline =>
    -- a deadline that is over is left to the sweep
    if agentId = "" ∨ deadline ≤ now ∨ (d.recoveringJobs row.id).isSome then d
    else d.startRecoveryTimer agentId row.id row.runId
  | _, _ => d

def recoverState (rows : List DispatchRow) : Dispatcher := rows.foldl (·.rehydrate now ·) d

def handleRecoveryExpiry : Dispatcher :=
  { d with
    recoveringJobs := update d.recoveringJobs jobId none
    jobToAgent := update d.jobToAgent jobId none
    jobRunIds := update d.jobRunIds jobId none
    startedJobs := update d.startedJobs jobId false
    agentJobs := d.agentJobs.erase [agentId] jobId }

def sweepExpiredRecoveries (expired : List DispatchRow) : Dispatcher :=
  expired.foldl (·.dropRecovering ·.id) d

def cleanupGrace (keep : GraceEntry → Bool) : Dispatcher :=
  { d with completedJobs := ⟨d.completedJobs.rows.filter keep,
      d.completedJobs.nodup.sublist (List.filter_sublist.map GraceEntry.jobId)⟩ }

def cleanupExpiredGraceEntries : Dispatcher := d.cleanupGrace fun entry => ¬ entry.expiresAt ≤ now

def cleanupGraceEntriesForAgent : Dispatcher := d.cleanupGrace fun entry => entry.agentId ≠ agentId

/-- The timers that are kept are cleared. -/
def stopRecoveryTimers : Dispatcher :=
  { d with
    timers := d.timers.filter fun t => (d.recoveringJobs t.jobId).map (·.timer) ≠ some t.timer
    recoveringJobs := fun _ => none }

def step : TrackingAction → Option Dispatcher
  | .trackJobForAgent agentId jobId runId => some (d.trackJobForAgent agentId jobId runId)
  | .untrackJob agentId jobId => some (d.untrackJob agentId jobId)
  | .releaseTrackedClaim agentId jobId => some (d.releaseTrackedClaim agentId jobId)
  | .onJobComplete agentId jobId now => some (d.onJobComplete agentId jobId now)
  | .markJobStarted jobId => some (d.markJobStarted jobId)
  | .startRecoveryTimer jobId agentId runId => some (d.startRecoveryTimer agentId jobId runId)
  | .claimRecovery jobId agentId => some (d.claimRecovery agentId jobId)
  | .restoreJobForAgent agentId jobId runId => some (d.restoreJobForAgent agentId jobId runId)
  | .recoverState rows now => some (d.recoverState now rows)
  | .timer k => d.timers[k]?.map fun t =>
    { d with timers := d.timers.eraseIdx k }.handleRecoveryExpiry t.agentId t.jobId
  | .sweepExpiredRecoveries expired => some (d.sweepExpiredRecoveries expired)
  | .cleanupExpiredGraceEntries now => some (d.cleanupExpiredGraceEntries now)
  | .cleanupGraceEntriesForAgent agentId => some (d.cleanupGraceEntriesForAgent agentId)
  | .stopRecoveryTimers => some d.stopRecoveryTimers

/-- The agent and the job of a step that tracks the job for the agent, or takes it from the agent,
without asking whose the job is. -/
def moves : TrackingAction → Option (String × String)
  | .trackJobForAgent agentId jobId _ | .untrackJob agentId jobId | .onJobComplete agentId jobId _
  | .restoreJobForAgent agentId jobId _ => some (agentId, jobId)
  | .timer k => d.timers[k]?.map fun t => (t.agentId, t.jobId)
  | _ => none

/-- A step moves no job that is on another agent. -/
def keepsOwner (a : TrackingAction) : Bool :=
  (d.moves a).all fun move => Index.freeFor d.jobToAgent move.1 move.2

/-- A job is among those of an agent if and only if that is the agent of the job, and has a run if
and only if it has an agent. -/
structure Mirrored : Prop where
  agents : d.agentJobs.Mirrors d.jobToAgent
  runs : ∀ jobId, (d.jobRunIds jobId).isSome = (d.jobToAgent jobId).isSome

end Dispatcher

/-- A dispatcher that starts without jobs. -/
def trackingSystem : System Dispatcher TrackingAction where
  init := {{}}
  step := Dispatcher.step

end Kici
