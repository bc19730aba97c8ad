import Kici.Runs.StatusEpoch
import Kici.Runs.Tracker

/-!
# Reports about the jobs of a run

Agents, peers and schedulers report what becomes of the jobs of a run, in any order and more than
once (`onJobStatus`). Any number of coordinators take such reports, each with its own memory, and
write the rows they share. A report that ends a job may end the run; then the coordinator finalizes
it (`finalizeRunCompletion`).

The calls of one coordinator for the run exclude each other by a lock, but for those that are made
while the lock is held: they run *inline*. Whether a call is such a one is told by its asynchronous
context, which timers inherit, and calls that nobody waits for; so an inline call may run at any
time, also after the lock was released.

A call runs in one go up to its next statement, which the database executes at some later time; what
follows the statement comes later still (`RunCallPoint`).

* `ReportsState.nextOf`: how a call goes on;
* `ReportsState.step`: the coordinators and the rows.
-/

namespace Kici

/-- A run in the memory of a coordinator. -/
structure TrackedRun (κ : Type) extends RunGeneration κ where
  run : RunState
  /-- The coordinator had had the run before, and it was over when it came into memory again; it was
  not reopened since. -/
  late : Bool := false

inductive RunCallKind
  | onJobStatus (jobId : String) (state : ExecutionJobStatus)
  /-- Jobs are registered, the first of them in the place of a synthetic job if there is one. -/
  | addJobsToRun (jobs : List TrackedJob) (replaceSyntheticId : Option String)
  | releasePendingJobsHold

/-- Where a call is: before a statement, or before what follows one. -/
inductive RunCallPoint
  /-- The lock is to be taken. -/
  | withRunLock
  | start
  | recoverRunFromDb
  /-- The row was read, with its generation. -/
  | recovered (row : ExecutionRun) (statusEpoch : ℕ)
  | recoverJobFromDispatchQueue (ref : ℕ)
  | persistJobStatusUpdate (ref : ℕ)
  | persisted (ref : ℕ) (applied : Bool)
  | readJobStatus (ref : ℕ)
  | jobStatusRead (ref : ℕ) (storedStatus : Option ExecutionJobStatus)
  | readRunStatus (ref : ℕ)
  | runStatusRead (ref : ℕ) (runStatus : Option ExecutionRunStatus)
  | reopen (ref epoch : ℕ)
  | reopened (ref epoch : ℕ) (raised : Bool)
  | adoptStoredStatusEpoch (ref : ℕ)
  /-- The report is persisted, and is to be taken into memory. -/
  | report (ref : ℕ)
  /-- The callbacks and the schedulers run. -/
  | hooks (ref : ℕ)
  | replaceSynthetic (ref : ℕ)
  /-- The jobs that are still to be looked up, and whether one of those before is over. -/
  | registerJobs (ref : ℕ) (jobs : List TrackedJob) (reEvaluate : Bool)
  | insertTrackedJobRows (ref : ℕ) (reEvaluate : Bool)
  | cancelJobsOfStoppedRun (ref : ℕ) (reEvaluate : Bool)
  | clearRegistrationWindow (ref : ℕ)
  /-- The rows of the jobs are to be read, for `readyToFinalize` or before it. -/
  | syncRunJobsFromRows (ref : ℕ) (ready : Bool)
  | synced (ref : ℕ) (rows : List RunJob) (ready : Bool)
  | checkSchedulerInvariant (ref : ℕ)
  | registrationWindow (ref : ℕ)
  | registrationWindowRead (ref : ℕ) (holder : Option String)
  | liveInstanceIds (ref : ℕ)
  | finalizeWrite (status : ExecutionRunStatus) (failureReason : Option JsString)
      (failureClass : Option RunFailureClass)
  deriving DecidableEq

/-- A call of a coordinator about the run. -/
structure RunCall (κ : Type) where
  coordinator : κ
  kind : RunCallKind
  /-- It runs inline, without the lock. -/
  inlined : Bool
  point : RunCallPoint

/-- What a call gets to know besides the rows. -/
structure RunCallAnswer where
  checkMode : Option CheckMode := none
  driftDetected : Bool := false
  /-- The name and the workflow of the job, if it is in the queue. -/
  queueEntry : Option (JsString × Option JsString) := none
  /-- Whether jobs are stuck, which are failed then. -/
  stuck : Bool := false
  /-- Whether the sibling that has the window open is alive. -/
  live : Bool := false

inductive RunEvent (κ : Type)
  /-- The coordinator ran `finalizeRunCompletion`. -/
  | finalized (c : κ)
  /-- The row of the run was reset to running. -/
  | reopened
  deriving DecidableEq

structure ReportsState (κ : Type) where
  db : RunsDb
  /-- The generation of the row of the run. -/
  statusEpoch : ℕ := 0
  /-- What is, or was, in the memories. -/
  objects : List (TrackedRun κ) := []
  /-- The place of the run among them, as a coordinator has it. -/
  runs : κ → Option ℕ := fun _ => none
  calls : List (RunCall κ) := []
  events : List (RunEvent κ) := []

inductive ReportsAction (κ : Type)
  | call (c : κ) (kind : RunCallKind)
  /-- A call is made by one that has the lock, or by what one has left running. -/
  | inlineCall (c : κ) (kind : RunCallKind)
  | onExecutionStarted (c : κ) (checkMode : Option CheckMode) (jobs : List TrackedJob)
  /-- The row of the run is inserted, unless there is one. -/
  | insertRun (row : ExecutionRun)
  /-- Other code writes the row of the run. -/
  | writeRun (statement : RunStatement)
  /-- Other code writes rows of jobs. -/
  | writeJobs (rows : Table RunJob.key)
  /-- Other code changes the run in memory; a run that is completed stays so. -/
  | edit (c : κ) (f : RunState → RunState)
  /-- The run leaves the memory. -/
  | prune (c : κ)
  /-- The statement of a call runs, or the call goes on. -/
  | next (k : ℕ) (answer : RunCallAnswer)
  /-- A statement fails. -/
  | throws (k : ℕ)

/-- The write of `reopenRecoveredRun`, without the generation. -/
def ExecutionRun.reopenUpdate (texts : LowerTexts) (runId : String) : Update ExecutionRun.runId where
  guard row := row.runId = runId ∧ row.status = .failed ∧
    ∀ reason ∈ row.failureReason, JsString.includes (texts.lower reason) "build" = false
  set row := { row with status := .running, failureReason := none, failureClass := none }

namespace RunsDb

variable (db : RunsDb)

def jobStatusOf (runId jobId : String) : Option ExecutionJobStatus :=
  (db.executionJobs.lookup (runId, jobId)).map (·.status)

/-- Insert the rows of jobs; a row that is there keeps its status. -/
def insertTrackedJobRows (runId : String) (jobs : List TrackedJob) : RunsDb :=
  { db with executionJobs := jobs.foldl (fun rows job =>
      rows.insertNew ⟨runId, job.jobId, job.name, job.workflowName, .pending⟩) db.executionJobs }

/-- Cancel jobs that have not started, if their run is over or is cancelled. -/
def cancelJobsOfStoppedRun (runId : String) (jobs : List TrackedJob) : RunsDb :=
  if (db.statusOf runId).any (· ∈ ExecutionRunStatus.cancelling :: TERMINAL_RUN_STATES) then
    { db with executionJobs := db.executionJobs.execute {
        guard := fun row => row.runId = runId ∧ row.jobId ∈ jobs.map (·.jobId) ∧
          row.status ∈ [.pending, .queued]
        set := fun row => { row with status := .cancelled } } }
  else db

end RunsDb

namespace RunState

/-- Give the job of an id a status, if it is there. -/
def setJobStatus (run : RunState) (jobId : String) (status : ExecutionJobStatus) : RunState :=
  { run with jobs := run.jobs.map fun job => if job.jobId = jobId then { job with status } else job }

end RunState

namespace RunCallPoint

/-- Whether the call has marked the run as completed, and is about to write its row. -/
def isFinalizeWrite : RunCallPoint → Bool
  | .finalizeWrite .. => true
  | _ => false

/-- The run that a call is to finalize next, if it is. -/
def finalizes? (instanceId : Option String) (live : Bool) : RunCallPoint → Option ℕ
  | .registrationWindowRead ref holder =>
    -- The coordinator's own window is governed by its tokens.
    if holder.all fun id => id = "" ∨ some id = instanceId then some ref else none
  | .liveInstanceIds ref => if live then none else some ref
  | _ => none

end RunCallPoint

namespace ReportsState

variable {κ : Type} (s : ReportsState κ)

/-! ## Memory -/

/-- The run in the memory of a coordinator. -/
def run (c : κ) : Option RunState := (s.runs c).bind fun ref => (s.objects[ref]?).map (·.run)

def isRunComplete (c : κ) : Bool := (s.run c).any (·.isComplete)

def modify (ref : ℕ) (f : TrackedRun κ → TrackedRun κ) : ReportsState κ :=
  { s with objects := s.objects.modify ref f }

def modifyRun (ref : ℕ) (f : RunState → RunState) : ReportsState κ :=
  s.modify ref fun r => { r with run := f r.run }

/-- Whether the run is completed at a place in memory. -/
def completedAt (ref : ℕ) : Bool := (s.objects[ref]?).any (·.run.completedAt)

def withDb (db : RunsDb) : ReportsState κ := { s with db }

variable [DecidableEq κ]

/-- The run is over for a coordinator: by its row, or as the coordinator is about to write it. -/
def isOver (runId : String) (c : κ) : Bool :=
  (s.db.statusOf runId).any (· ∈ TERMINAL_RUN_STATES) ||
    s.calls.any fun call => call.coordinator = c && call.point.isFinalizeWrite

/-- Put a run into the memory of its coordinator. -/
def addRun (runId : String) (r : TrackedRun κ) : ReportsState κ :=
  { s with
    objects := s.objects ++ [{ r with
      late := s.isOver runId r.coordinator && s.objects.any fun before =>
        before.coordinator = r.coordinator }]
    runs := fun c => if c = r.coordinator then some s.objects.length else s.runs c }

/-! ## Calls -/

variable (texts : LowerTexts) (instanceId : κ → Option String) (runId : String)

omit [DecidableEq κ] in
/-- A report is persisted, unless the run has it already. -/
def persistUnlessReplayed (ref : ℕ) (job : Option TrackedJob) (state : ExecutionJobStatus) :
    Option RunCallPoint :=
  if job.any (·.status = state) ∧ state ∈ TERMINAL_JOB_STATES then none
    else some (.persistJobStatusUpdate ref)

omit [DecidableEq κ] in
/-- The job of a report is looked up in the run. -/
def findJob (ref : ℕ) (jobId : String) (state : ExecutionJobStatus) : Option RunCallPoint :=
  match (s.objects[ref]?).bind fun r => r.run.job jobId with
  | some job => persistUnlessReplayed ref (some job) state
  | none => some (.recoverJobFromDispatchQueue ref)

/-- `onJobStatusImpl`, `addJobsToRunImpl` and `releasePendingJobsHold` up to their first statement. -/
def begin (c : κ) : RunCallKind → ReportsState κ × Option RunCallPoint
  | .onJobStatus jobId state =>
    match s.runs c with
    | none => (s, some .recoverRunFromDb)
    | some ref => (s, s.findJob ref jobId state)
  | .addJobsToRun jobs replaceSyntheticId =>
    match s.runs c with
    | none => (s, none)
    | some ref =>
      (s, some (match replaceSyntheticId with
        | some _ => .replaceSynthetic ref
        | none => .registerJobs ref jobs false))
  | .releasePendingJobsHold =>
    match s.runs c with
    | none => (s, none)
    | some ref =>
      if ((s.objects[ref]?).map (·.run.pendingJobRegistrations)).getD 0 = 0 then (s, none)
      else
        let t := s.modifyRun ref (·.releaseHold)
        if 0 < ((t.objects[ref]?).map (·.run.pendingJobRegistrations)).getD 0 then (t, none)
        else (t, some (.clearRegistrationWindow ref))

/-- `reopenRecoveredRun` up to its statement. -/
def reopenRecoveredRun (ref : ℕ) : ReportsState κ × Option RunCallPoint :=
  match s.objects[ref]? with
  | some r =>
    if r.reopenableFailedRow then
      (s.modify ref fun r => { r with reopenableFailedRow := false },
        some (.reopen ref (r.statusEpoch.getD 0)))
    else (s, some (.report ref))
  | none => (s, none)

/-- The completion check before the one of the scheduler. -/
def checkCompletion (c : κ) (ref : ℕ) : Option RunCallPoint :=
  if s.completedAt ref ∨ ¬s.isRunComplete c then none else some (.checkSchedulerInvariant ref)

/-- `readyToFinalize` up to its first statement. -/
def readyToFinalize (c : κ) (ref : ℕ) : Option RunCallPoint :=
  if s.completedAt ref ∨ ¬s.isRunComplete c then none else some (.syncRunJobsFromRows ref true)

/-- `finalizeRunCompletion` up to its write. -/
def finalizeRunCompletion (c : κ) (ref : ℕ) : ReportsState κ × Option RunCallPoint :=
  match s.objects[ref]? with
  | none => (s, none)
  | some r =>
    let overallStatus := r.run.computeRunStatus
    let failureReason := if overallStatus = .failed then r.run.buildRunDescription overallStatus
      else none
    let failureClass := computeFailureClass overallStatus (r.run.jobs.map (·.status))
    ({ s.modifyRun ref fun run => { run with
        completedAt := true
        failureReason := match failureReason with
          | some reason => some reason
          | none => run.failureReason } with
        events := s.events ++ [.finalized c] },
      some (.finalizeWrite overallStatus failureReason failureClass))

/-- How a call goes on, and where it is then, unless it is over. -/
def nextOf (c : κ) (kind : RunCallKind) (answer : RunCallAnswer) (point : RunCallPoint) :
    ReportsState κ × Option RunCallPoint :=
  match point.finalizes? (instanceId c) answer.live with
  | some ref => s.finalizeRunCompletion c ref
  | none =>
    match point with
    | .withRunLock => (s, some .start)
    | .start => s.begin c kind
    | .recoverRunFromDb =>
      -- A run that is held is not read back.
      (s, ((s.db.executionRuns.lookup runId).filter fun row => row.status ≠ .held).map
        fun row => .recovered row s.statusEpoch)
    | .recovered row statusEpoch =>
      let run := { status := RunState.recoveredStatus row.status
                   checkMode := answer.checkMode
                   driftDetected := answer.driftDetected }
      (s.addRun runId { StatusEpochState.recoveredRun texts c ⟨row, statusEpoch⟩ with run },
        some (.recoverJobFromDispatchQueue s.objects.length))
    | .recoverJobFromDispatchQueue ref =>
      match kind with
      | .onJobStatus jobId _ =>
        let (name, workflowName) := answer.queueEntry.getD (js jobId, none)
        (s.modifyRun ref (·.setJob ⟨jobId, name, workflowName, .pending⟩),
          some (.persistJobStatusUpdate ref))
      | _ => (s, none)
    | .persistJobStatusUpdate ref =>
      match kind with
      | .onJobStatus jobId state =>
        let job := (s.objects[ref]?).bind fun r => r.run.job jobId
        let row := ⟨runId, jobId, (job.map (·.name)).getD (js jobId), job.bind (·.workflowName), state⟩
        -- A row that is over is not rewritten.
        (s.withDb (s.db.persistJobStatus row),
          some (.persisted ref ((s.db.jobStatusOf runId jobId).all (· ∉ TERMINAL_JOB_STATES))))
      | _ => (s, none)
    | .persisted ref applied =>
      if applied then s.reopenRecoveredRun ref else (s, some (.readJobStatus ref))
    | .readJobStatus ref =>
      match kind with
      | .onJobStatus jobId _ => (s, some (.jobStatusRead ref (s.db.jobStatusOf runId jobId)))
      | _ => (s, none)
    | .jobStatusRead ref storedStatus =>
      match kind with
      | .onJobStatus _ state =>
        (s, if storedStatus = some state then some (.readRunStatus ref) else none)
      | _ => (s, none)
    | .readRunStatus ref => (s, some (.runStatusRead ref (s.db.statusOf runId)))
    | .runStatusRead ref runStatus =>
      if runStatus.any (· ∈ TERMINAL_RUN_STATES) then
        -- The run is finished elsewhere.
        match s.runs c with
        | some ref' => (s.modifyRun ref' (·.releaseFinishedElsewhere), none)
        | none => (s, none)
      else s.reopenRecoveredRun ref
    | .reopen ref epoch =>
      let u := ExecutionRun.reopenUpdate texts runId
      if s.db.applies u ∧ s.statusEpoch = epoch then
        ({ s with
            db := s.db.updateRuns u
            statusEpoch := epoch + 1
            objects := s.objects.map fun r => { r with late := false }
            events := s.events ++ [.reopened] }, some (.reopened ref epoch true))
      else (s, some (.reopened ref epoch false))
    | .reopened ref epoch raised =>
      if raised then (s.modify ref fun r => { r with statusEpoch := some (epoch + 1) },
        some (.report ref))
      else (s, some (.adoptStoredStatusEpoch ref))
    | .adoptStoredStatusEpoch ref =>
      (if (s.db.statusOf runId).isSome then s.modify ref fun r =>
        { r with statusEpoch := some s.statusEpoch } else s, some (.report ref))
    | .report ref =>
      match kind with
      | .onJobStatus jobId state => (s.modifyRun ref (·.setJobStatus jobId state), some (.hooks ref))
      | _ => (s, none)
    | .hooks ref =>
      match kind with
      | .onJobStatus _ state =>
        (s, if state ∈ TERMINAL_JOB_STATES then s.checkCompletion c ref else none)
      | _ => (s, none)
    | .replaceSynthetic ref =>
      match kind with
      | .addJobsToRun jobs (some syntheticId) =>
        ((s.modifyRun ref (·.deleteJob syntheticId)).withDb (s.db.deleteJob runId syntheticId),
          some (.registerJobs ref jobs false))
      | _ => (s, none)
    | .registerJobs ref [] reEvaluate => (s, some (.insertTrackedJobRows ref reEvaluate))
    | .registerJobs ref (job :: jobs) reEvaluate =>
      -- A job that is over already, in memory or by its row, stays so.
      let existing := ((s.objects[ref]?).bind fun r => r.run.job job.jobId).map (·.status)
      let stored := existing.filter (· ∈ TERMINAL_JOB_STATES) <|>
        (s.db.jobStatusOf runId job.jobId).filter (· ∈ TERMINAL_JOB_STATES)
      (s.modifyRun ref (·.setJob { job with status := stored.getD .pending }),
        some (.registerJobs ref jobs (reEvaluate || stored.isSome)))
    | .insertTrackedJobRows ref reEvaluate =>
      match kind with
      | .addJobsToRun jobs _ =>
        (s.withDb (s.db.insertTrackedJobRows runId jobs), some (.cancelJobsOfStoppedRun ref reEvaluate))
      | _ => (s, none)
    | .cancelJobsOfStoppedRun ref reEvaluate =>
      match kind with
      | .addJobsToRun jobs _ =>
        let t := s.withDb (s.db.cancelJobsOfStoppedRun runId jobs)
        (t, if reEvaluate then t.checkCompletion c ref else none)
      | _ => (s, none)
    | .clearRegistrationWindow ref =>
      let t := match instanceId c with
        | some id => s.withDb (s.db.updateRuns (ExecutionRun.clearWindowUpdate runId id))
        | none => s
      (t, if t.completedAt ref then none else some (.syncRunJobsFromRows ref false))
    | .syncRunJobsFromRows ref ready => (s, some (.synced ref (s.db.jobsOf runId) ready))
    | .synced ref rows ready =>
      let t := s.modifyRun ref (TrackerState.foldRows rows)
      (t,
        if ¬t.isRunComplete c then none
        else some (if ready then .registrationWindow ref else .checkSchedulerInvariant ref))
    | .checkSchedulerInvariant ref => (s, if answer.stuck then none else s.readyToFinalize c ref)
    | .registrationWindow ref =>
      (s, some (.registrationWindowRead ref
        ((s.db.executionRuns.lookup runId).bind (·.registrationWindowInstanceId))))
    | .registrationWindowRead ref _ => (s, some (.liveInstanceIds ref))
    | .liveInstanceIds _ => (s, none)
    | .finalizeWrite status failureReason failureClass =>
      -- The write may be rejected; the callbacks are called all the same.
      (s.withDb (s.db.updateRuns
        (ExecutionRun.finalizeUpdate runId status failureReason failureClass)), none)

omit [DecidableEq κ] in
/-- A call begins. -/
def addCall (call : RunCall κ) : ReportsState κ := { s with calls := s.calls ++ [call] }

/-- Whether no call has the lock of a coordinator. -/
def isFree (c : κ) : Bool :=
  s.calls.all fun call => call.coordinator ≠ c || call.inlined || call.point = .withRunLock

def step : ReportsAction κ → Option (ReportsState κ)
  | .call c kind => some (s.addCall ⟨c, kind, false, .withRunLock⟩)
  | .inlineCall c kind => some (s.addCall ⟨c, kind, true, .start⟩)
  | .onExecutionStarted c checkMode jobs =>
    match (s.runs c).filter fun ref => (s.objects[ref]?).any (!·.run.completedAt) with
    | some ref =>
      -- A workflow that joins the run adds the jobs that are not there.
      some (s.modifyRun ref fun run => jobs.foldl (fun run job =>
        if (run.job job.jobId).isSome then run else run.setJob job) run)
    | none => some (s.addRun runId { coordinator := c, run := { jobs, checkMode } })
  | .insertRun row =>
    if row.runId = runId then
      some { s with
        db := { s.db with executionRuns := s.db.executionRuns.insertNew row }
        statusEpoch := if (s.db.statusOf runId).isSome then s.statusEpoch else 0 }
    else none
  | .writeRun statement => some (s.withDb (s.db.updateRuns (statement.update runId)))
  | .writeJobs rows => some (s.withDb { s.db with executionJobs := rows })
  | .edit c f => (s.runs c).map fun ref => s.modifyRun ref fun run =>
    { f run with completedAt := run.completedAt || (f run).completedAt }
  | .prune c => some { s with runs := fun c' => if c' = c then none else s.runs c' }
  | .next k answer =>
    match s.calls[k]? with
    | some call =>
      if call.point = .withRunLock ∧ ¬s.isFree call.coordinator then none
      else
        let next := s.nextOf texts instanceId runId call.coordinator call.kind answer call.point
        some { next.1 with calls := s.calls.take k ++
          (next.2.map fun point => { call with point }).toList ++ s.calls.drop (k + 1) }
    | none => none
  | .throws k => (s.calls[k]?).map fun _ =>
    { s with calls := s.calls.take k ++ [] ++ s.calls.drop (k + 1) }

end ReportsState

/-- The coordinators of one run, from any rows on, with the run in no memory. -/
def reportsSystem {κ : Type} [DecidableEq κ] (texts : LowerTexts) (instanceId : κ → Option String)
    (runId : String) : System (ReportsState κ) (ReportsAction κ) where
  init := {s | ∃ db statusEpoch, s = { db, statusEpoch }}
  step s := s.step texts instanceId runId

end Kici
