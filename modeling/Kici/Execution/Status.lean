import Kici.Js.Str

/-!
# Statuses of runs and jobs

The statuses that rows of `execution_runs` and `execution_jobs` have, and those a run or
a job has once it is over.
-/

namespace Kici

inductive ExecutionRunStatus
  | pending
  | running
  | success
  | failed
  | cancelled
  | cancelling
  /-- Paused at the install gate. -/
  | held
  deriving DecidableEq

/-- The statuses of a run that is over. -/
def TERMINAL_RUN_STATES : List ExecutionRunStatus := [.success, .failed, .cancelled]

inductive ExecutionJobStatus
  | pending
  | queued
  | running
  | recovering
  | cancelling
  | success
  | failed
  | cancelled
  | skipped
  | timed_out_stale
  | drift_dropped
  /-- No agent had the labels of the job. -/
  | unroutable
  deriving DecidableEq

/-- A status as it stands in the database. -/
def ExecutionJobStatus.text : ExecutionJobStatus → JsString
  | .pending => "pending"
  | .queued => "queued"
  | .running => "running"
  | .recovering => "recovering"
  | .cancelling => "cancelling"
  | .success => "success"
  | .failed => "failed"
  | .cancelled => "cancelled"
  | .skipped => "skipped"
  | .timed_out_stale => "timed_out_stale"
  | .drift_dropped => "drift_dropped"
  | .unroutable => "unroutable"

/-- The statuses of a job that is over. -/
def TERMINAL_JOB_STATES : List ExecutionJobStatus :=
  [.success, .failed, .cancelled, .skipped, .timed_out_stale, .drift_dropped, .unroutable]

/-- Whether a job with the status did not do what the workflow declared. -/
def isFailureStatus : ExecutionJobStatus → Bool
  | .failed | .timed_out_stale | .drift_dropped | .unroutable => true
  | .pending | .queued | .running | .recovering | .cancelling | .success | .cancelled | .skipped => false

theorem ExecutionJobStatus.text_injective {a b : ExecutionJobStatus} (h : a.text = b.text) :
    a = b := by
  revert h
  cases a <;> cases b <;> decide

end Kici
