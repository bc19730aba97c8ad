import Kici.Execution.Status

/-!
# Runs in memory

What a coordinator knows of a run (`RunState`): its jobs by id, each with the status it last
had. From them come whether the run is complete (`RunState.isComplete`), how it ended
(`RunState.computeRunStatus`, `computeFailureClass`) and why
(`RunState.buildRunDescription`).

A run is not complete while jobs are still to be registered, of which there is a count
(`pendingJobRegistrations`); `holdForPendingJobs` takes a token, `releaseHold` drops one.
-/

namespace Kici

open ExecutionRunStatus

inductive CheckMode
  | apply
  | check
  /-- Drift that is detected fails the run. -/
  | checkFailOnDrift
  deriving DecidableEq

inductive RunFailureClass
  | never_started
  | timed_out
  | dead_orchestrator
  | step_failure
  | cancelled
  deriving DecidableEq

/-- A job of a run in memory. -/
structure TrackedJob where
  jobId : String
  name : JsString
  workflowName : Option JsString := none
  status : ExecutionJobStatus := .pending
  deriving DecidableEq

/-- The statuses of a run that goes on. -/
def LIVE_RUN_STATES : List ExecutionRunStatus := [.pending, .running, .cancelling]

theorem pending_mem_live : pending ∈ LIVE_RUN_STATES := by decide

theorem running_mem_live : running ∈ LIVE_RUN_STATES := by decide

theorem cancelling_mem_live : cancelling ∈ LIVE_RUN_STATES := by decide

/-- A run in memory. Its jobs are a `Map`, in the order in which they came. -/
structure RunState where
  /-- How far the run is; how it ended is not kept. -/
  status : {status : ExecutionRunStatus // status ∈ LIVE_RUN_STATES} := ⟨.pending, pending_mem_live⟩
  jobs : List TrackedJob := []
  checkMode : Option CheckMode := none
  driftDetected : Bool := false
  failureReason : Option JsString := none
  /-- Whether `completedAt` is set. -/
  completedAt : Bool := false
  pendingJobRegistrations : ℕ := 0

/-- The names of the jobs that failed, with their workflows if there are several. -/
def failedJobsSummary (jobs : List TrackedJob) : Option JsString :=
  let workflows := (jobs.filterMap (·.workflowName)).filter (· ≠ [])
  let severalWorkflows := 1 < workflows.eraseDups.length
  let failed := (jobs.filter fun j => isFailureStatus j.status).map fun j =>
    match j.workflowName with
    | some workflowName =>
      if severalWorkflows ∧ workflowName ≠ [] then workflowName ++ " / " ++ j.name else j.name
    | none => j.name
  if failed = [] then none else some ("Failed jobs: " ++ JsString.join failed ", ")

/-- Why a run failed, from the statuses of its jobs. -/
def computeFailureClass (status : ExecutionRunStatus) (jobs : List ExecutionJobStatus) :
    Option RunFailureClass :=
  if status = .cancelled then some .cancelled
  else if status ≠ .failed then none
  else if jobs.any (· ∈ [.timed_out_stale, .drift_dropped, .unroutable]) then some .timed_out
  else some .step_failure

/-- The status of a run whose jobs have the statuses. -/
def rollUp (jobs : List ExecutionJobStatus) : ExecutionRunStatus :=
  if jobs.any isFailureStatus then .failed
  else if .cancelled ∈ jobs then .cancelled
  else .success

namespace RunState

variable (run : RunState)

/-- The job of an id. -/
def job (jobId : String) : Option TrackedJob := run.jobs.find? fun j => j.jobId = jobId

/-- Set the job of an id (`run.jobs.set`). -/
def setJob (job : TrackedJob) : RunState :=
  { run with jobs :=
      if run.jobs.any fun j => j.jobId = job.jobId then
        run.jobs.map fun j => if j.jobId = job.jobId then job else j
      else run.jobs ++ [job] }

def deleteJob (jobId : String) : RunState :=
  { run with jobs := run.jobs.filter fun j => j.jobId ≠ jobId }

/-- Whether every job is over, and none is still to be registered. -/
def isComplete : Bool :=
  run.pendingJobRegistrations = 0 ∧ run.jobs.all (fun j => j.status ∈ TERMINAL_JOB_STATES) ∧
    run.jobs ≠ []

def failsOnDrift : Bool := run.checkMode = some .checkFailOnDrift ∧ run.driftDetected

def computeRunStatus : ExecutionRunStatus :=
  if run.failsOnDrift then .failed else rollUp (run.jobs.map (·.status))

def buildRunDescription (status : ExecutionRunStatus) : Option JsString :=
  if status = .success then none
  else if run.failsOnDrift then some "Drift detected in check mode (--fail-on-drift)"
  else failedJobsSummary run.jobs

/-- Take a token; a run that is completed has none. -/
def holdForPendingJobs : RunState :=
  if run.completedAt then run
  else { run with pendingJobRegistrations := run.pendingJobRegistrations + 1 }

/-- Drop a token. -/
def releaseHold : RunState :=
  { run with pendingJobRegistrations := run.pendingJobRegistrations - 1 }

/-- Mark a run that another writer has finished as completed. -/
def releaseFinishedElsewhere : RunState :=
  if run.completedAt then run
  else { run with completedAt := true, pendingJobRegistrations := 0 }

/-- The status of a run that is read back into memory. -/
def recoveredStatus (stored : ExecutionRunStatus) :
    {status : ExecutionRunStatus // status ∈ LIVE_RUN_STATES} :=
  match stored with
  | .pending => ⟨.pending, pending_mem_live⟩
  | .cancelling => ⟨.cancelling, cancelling_mem_live⟩
  | _ => ⟨.running, running_mem_live⟩

variable {run}

/-- The status of a run that is rolled up is one of a run that is over. -/
theorem rollUp_terminal (jobs : List ExecutionJobStatus) : rollUp jobs ∈ TERMINAL_RUN_STATES := by
  rw [rollUp]
  split
  · decide
  · split <;> decide

theorem computeRunStatus_terminal : run.computeRunStatus ∈ TERMINAL_RUN_STATES := by
  rw [computeRunStatus]
  split
  · decide
  · exact rollUp_terminal _

/-- A complete run has no job that is still to be registered. -/
theorem tokens_of_isComplete (h : run.isComplete) : run.pendingJobRegistrations = 0 := by
  rw [isComplete, decide_eq_true_eq] at h
  exact h.1

end RunState

end Kici
