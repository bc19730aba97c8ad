import Kici.Foundation.Table
import Kici.Runs.RunState

/-!
# Writing the rows of runs

The statements with which the execution tracker writes the status of a row of
`execution_runs`, one update for each of them. Most of them leave a run that is over as it is
(`Update.KeepsFinished`); the one of `failRun` does not ask.

A write that inserts a row where there is none is an upsert (`RunsDb.upsertRun`).
-/

namespace Kici

open Option

/-- A row of `execution_runs`. -/
structure ExecutionRun where
  runId : String
  status : ExecutionRunStatus
  isGlobalEvalRound : Bool := false
  failureReason : Option JsString := none
  failureClass : Option RunFailureClass := none
  /-- The coordinator that has jobs to register. -/
  registrationWindowInstanceId : Option String := none
  deriving DecidableEq

/-- A row of `execution_jobs`. -/
structure RunJob where
  runId : String
  jobId : String
  jobName : JsString
  workflowName : Option JsString := none
  status : ExecutionJobStatus
  deriving DecidableEq

def RunJob.key (row : RunJob) : String × String := (row.runId, row.jobId)

open ExecutionRun

structure RunsDb where
  executionRuns : Table runId
  executionJobs : Table RunJob.key

/-! ## Statements -/

/-- The statuses from which the stale detector may complete a run. -/
def STALE_RUN_STATES : List ExecutionRunStatus := [.pending, .running, .cancelling]

namespace ExecutionRun

/-- The write of `finalizeRunCompletion`. -/
def finalizeUpdate (runId : String) (status : ExecutionRunStatus) (failureReason : Option JsString)
    (failureClass : Option RunFailureClass) : Update ExecutionRun.runId where
  guard row := row.runId = runId ∧ row.status ∉ TERMINAL_RUN_STATES
  set row := { row with
    status
    failureClass
    -- A stale reason goes with a success, and stays otherwise, unless there is a new one.
    failureReason :=
      if status = .success then none
      else match failureReason with
        | some reason => some reason
        | none => row.failureReason }

/-- The write of `onBuildFailed`. -/
def buildFailedUpdate (runId : String) (failureReason : JsString) : Update ExecutionRun.runId where
  guard row := row.runId = runId ∧ row.status ∉ TERMINAL_RUN_STATES
  set row := { row with status := .failed, failureReason := some failureReason }

/-- The write of both paths of `completeRunIfAllJobsTerminal`. -/
def staleUpdate (runId : String) (status : ExecutionRunStatus)
    (failureClass : Option RunFailureClass) : Update ExecutionRun.runId where
  guard row := row.runId = runId ∧ row.status ∈ STALE_RUN_STATES
  set row := { row with status, failureClass }

/-- A reason that does not replace another. -/
def staleReasonUpdate (runId : String) (failureReason : JsString) : Update ExecutionRun.runId where
  guard row := row.runId = runId ∧ row.failureReason = none
  set row := { row with failureReason := some failureReason }

/-- The row `recordNeverStartedRun` inserts. -/
def neverStartedRow (runId : String) (failureReason : JsString) : ExecutionRun where
  runId
  status := .failed
  failureReason := some failureReason
  failureClass := some .never_started

/-- What `recordNeverStartedRun` writes over a row. -/
def neverStartedUpdate (runId : String) (failureReason : JsString) : Update ExecutionRun.runId where
  guard row := row.runId = runId ∧ row.status ∉ TERMINAL_RUN_STATES
  set row := { row with
    status := .failed
    failureReason := some failureReason
    failureClass := some .never_started }

/-- The row `recordRunHeld` inserts. -/
def heldRow (runId : String) (isGlobalEvalRound : Bool) : ExecutionRun where
  runId
  status := .held
  isGlobalEvalRound

/-- What `recordRunHeld` writes over a row. -/
def heldUpdate (runId : String) : Update ExecutionRun.runId where
  guard row := row.runId = runId ∧ row.status ∉ TERMINAL_RUN_STATES
  set row := { row with status := .held }

/-- The write of `claimHeldGlobalEvalRound`. -/
def claimRoundUpdate (runId : String) : Update ExecutionRun.runId where
  guard row := row.runId = runId ∧ row.status = .held ∧ row.isGlobalEvalRound
  set row := { row with status := .pending }

/-- The write of `completeReleasedGlobalEvalRound`, with the reason of a round that failed. -/
def settleRoundUpdate (runId : String) (reason : Option JsString) : Update ExecutionRun.runId where
  guard row := row.runId = runId ∧ row.status = .pending ∧ row.isGlobalEvalRound
  set row :=
    match reason with
    | none => { row with status := .success }
    | some reason => { row with
        status := .failed
        failureReason := some reason
        failureClass := some .never_started }
  key_set row := by cases reason <;> rfl

/-- The write of `resumeHeldRun`. -/
def resumeUpdate (runId : String) : Update ExecutionRun.runId where
  guard row := row.runId = runId ∧ row.status = .held
  set row := { row with status := .pending }

/-- The write of `cancelHeldRun`. -/
def cancelHeldUpdate (runId : String) (reason : JsString) : Update ExecutionRun.runId where
  guard row := row.runId = runId ∧ row.status = .held
  set row := { row with
    status := .cancelled
    failureReason := some reason
    failureClass := some .cancelled }

/-- The write of `cancelJoblessRun`; `jobless` are the runs without job rows. -/
def cancelJoblessUpdate (jobless : String → Bool) (runId : String) (reason : JsString) :
    Update ExecutionRun.runId where
  guard row := row.runId = runId ∧ row.status ∉ TERMINAL_RUN_STATES ++ [.held] ∧ jobless row.runId
  set row := { row with
    status := .cancelled
    failureReason := some (row.failureReason.getD reason)
    failureClass := some .cancelled }

/-- The write of `failRun`. -/
def failRunUpdate (runId : String) (reason : JsString) : Update ExecutionRun.runId where
  guard row := row.runId = runId
  set row := { row with
    status := .failed
    failureReason := some reason
    failureClass := some .never_started }

/-- Record who has jobs to register. -/
def openWindowUpdate (runId instanceId : String) : Update ExecutionRun.runId where
  guard row := row.runId = runId
  set row := { row with registrationWindowInstanceId := some instanceId }

def clearWindowUpdate (runId instanceId : String) : Update ExecutionRun.runId where
  guard row := row.runId = runId ∧ row.registrationWindowInstanceId = some instanceId
  set row := { row with registrationWindowInstanceId := none }

end ExecutionRun

namespace RunsDb

variable (db : RunsDb)

def updateRuns (u : Update runId) : RunsDb :=
  { db with executionRuns := db.executionRuns.execute u }

/-- Whether an update changes a row (`guardedWriteApplied`). -/
def applies (u : Update runId) : Bool := db.executionRuns.rows.any u.guard

/-- Insert a row, or update the one there is. -/
def upsertRun (row : ExecutionRun) (u : Update runId) : RunsDb :=
  match db.executionRuns.lookup row.runId with
  | some _ => db.updateRuns u
  | none => { db with executionRuns := db.executionRuns.insertNew row }

/-- Whether an upsert inserts or changes a row. -/
def upsertApplies (row : ExecutionRun) (u : Update runId) : Bool :=
  (db.executionRuns.lookup row.runId).isNone || db.applies u

def statusOf (runId : String) : Option ExecutionRunStatus :=
  (db.executionRuns.lookup runId).map (·.status)

/-- The rows of the jobs of a run. -/
def jobsOf (runId : String) : List RunJob := db.executionJobs.rows.filter fun row => row.runId = runId

/-- Give a job a status, unless it is over; a job that has no row gets one. -/
def persistJobStatus (job : RunJob) : RunsDb :=
  match db.executionJobs.lookup job.key with
  | some _ => { db with executionJobs := db.executionJobs.execute {
      guard := fun row => row.key = job.key ∧ row.status ∉ TERMINAL_JOB_STATES
      set := fun row => { row with status := job.status } } }
  | none => { db with executionJobs := db.executionJobs.insertNew job }

def deleteJob (runId jobId : String) : RunsDb :=
  { db with executionJobs := {
      rows := db.executionJobs.rows.filter fun row => row.key ≠ (runId, jobId)
      nodup := db.executionJobs.nodup.sublist (List.filter_sublist.map _) } }

/-- Fail the jobs of a run that have not started. -/
def failJobs (runId : String) : RunsDb :=
  { db with executionJobs := db.executionJobs.execute {
      guard := fun row => row.runId = runId ∧ row.status ∈ [.pending, .queued]
      set := fun row => { row with status := .failed } } }

end RunsDb

/-! ## What the statements do -/

/-- An update that leaves the status of a run that is over. -/
def Update.KeepsFinished (u : Update runId) : Prop :=
  ∀ row : ExecutionRun, u.guard row → row.status ∈ TERMINAL_RUN_STATES → (u.set row).status = row.status

namespace ExecutionRun

variable {runId : String} {failureReason reason : JsString} {status : ExecutionRunStatus}
  {failureClass : Option RunFailureClass} {u : Update ExecutionRun.runId}

/-- An update whose condition leaves out the runs that are over. -/
theorem keepsFinished_of_guard (h : ∀ row, u.guard row → row.status ∉ TERMINAL_RUN_STATES) :
    u.KeepsFinished :=
  fun row hg hterminal => absurd hterminal (h row hg)

theorem finalizeUpdate_keepsFinished {failureReason : Option JsString} :
    (finalizeUpdate runId status failureReason failureClass).KeepsFinished :=
  keepsFinished_of_guard fun row hg => by simp_all [finalizeUpdate]

theorem buildFailedUpdate_keepsFinished : (buildFailedUpdate runId failureReason).KeepsFinished :=
  keepsFinished_of_guard fun row hg => by simp_all [buildFailedUpdate]

theorem staleUpdate_keepsFinished : (staleUpdate runId status failureClass).KeepsFinished := by
  refine keepsFinished_of_guard fun row hg => ?_
  simp only [staleUpdate, decide_eq_true_eq] at hg
  obtain ⟨-, hstale⟩ := hg
  revert hstale
  cases row.status <;> decide

theorem neverStartedUpdate_keepsFinished : (neverStartedUpdate runId failureReason).KeepsFinished :=
  keepsFinished_of_guard fun row hg => by simp_all [neverStartedUpdate]

theorem heldUpdate_keepsFinished : (heldUpdate runId).KeepsFinished :=
  keepsFinished_of_guard fun row hg => by simp_all [heldUpdate]

/-- An update of rows that are not over, as they all have one status. -/
theorem keepsFinished_of_status (status : ExecutionRunStatus)
    (h : ∀ row, u.guard row → row.status = status) (hstatus : status ∉ TERMINAL_RUN_STATES) :
    u.KeepsFinished :=
  keepsFinished_of_guard fun row hg => h row hg ▸ hstatus

theorem claimRoundUpdate_keepsFinished : (claimRoundUpdate runId).KeepsFinished :=
  keepsFinished_of_status .held (fun row hg => by simp_all [claimRoundUpdate]) (by decide)

theorem settleRoundUpdate_keepsFinished {reason : Option JsString} :
    (settleRoundUpdate runId reason).KeepsFinished :=
  keepsFinished_of_status .pending (fun row hg => by simp_all [settleRoundUpdate]) (by decide)

theorem resumeUpdate_keepsFinished : (resumeUpdate runId).KeepsFinished :=
  keepsFinished_of_status .held (fun row hg => by simp_all [resumeUpdate]) (by decide)

theorem cancelHeldUpdate_keepsFinished : (cancelHeldUpdate runId reason).KeepsFinished :=
  keepsFinished_of_status .held (fun row hg => by simp_all [cancelHeldUpdate]) (by decide)

theorem cancelJoblessUpdate_keepsFinished {jobless : String → Bool} :
    (cancelJoblessUpdate jobless runId reason).KeepsFinished :=
  keepsFinished_of_guard fun row hg => by simp_all [cancelJoblessUpdate]

/-- An update that leaves all statuses. -/
theorem keepsFinished_of_set (h : ∀ row, (u.set row).status = row.status) :
    u.KeepsFinished := fun row _ _ => h row

end ExecutionRun

namespace RunsDb

variable {db : RunsDb} {u : Update runId} {row : ExecutionRun} {runId : String}
  {status : ExecutionRunStatus}

theorem statusOf_updateRuns : (db.updateRuns u).statusOf runId =
    (db.executionRuns.lookup runId).map fun row => (u.apply row).status := by
  rw [statusOf, updateRuns, Table.lookup_execute, map_map]
  rfl

section

variable (hkeeps : ∀ row ∈ db.executionRuns, u.guard row → row.status ∈ TERMINAL_RUN_STATES →
  (u.set row).status = row.status) (hstatus : db.statusOf runId = some status)
  (hterminal : status ∈ TERMINAL_RUN_STATES)
include hkeeps hstatus hterminal

/-- A run that is over keeps its status, if the update leaves those of the rows there are. -/
theorem statusOf_updateRuns_of_finished :
    (db.updateRuns u).statusOf runId = some status := by
  obtain ⟨row, hrow, rfl⟩ := map_eq_some_iff.1 hstatus
  rw [statusOf_updateRuns, hrow, map_some, Update.apply]
  split
  · next hg => rw [hkeeps row (Table.lookup_eq_some.1 hrow).1 hg hterminal]
  · rfl

theorem statusOf_upsertRun_of_finished :
    (db.upsertRun row u).statusOf runId = some status := by
  rw [upsertRun.eq_def]
  split
  · exact statusOf_updateRuns_of_finished hkeeps hstatus hterminal
  · obtain ⟨r, hr, rfl⟩ := map_eq_some_iff.1 hstatus
    rw [statusOf, Table.lookup_insertNew hr, map_some]

end

/-- An update gives the run the status it sets, if it applies to its row. -/
theorem statusOf_updateRuns_of_guard (hrow : db.executionRuns.lookup runId = some row) (hg : u.guard row)
    (hset : (u.set row).status = status) : (db.updateRuns u).statusOf runId = some status := by
  rw [statusOf_updateRuns, hrow, map_some, Update.apply_of_guard hg, hset]

@[simp] theorem statusOf_persistJobStatus {job : RunJob} :
    (db.persistJobStatus job).statusOf runId = db.statusOf runId := by
  rw [persistJobStatus.eq_def]
  split <;> rfl

end RunsDb

end Kici
