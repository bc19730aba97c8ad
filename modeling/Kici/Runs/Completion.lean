import Mathlib.Data.List.Perm.Basic
import Kici.Runs.Tracker

/-!
# The verdict of each way to complete a run

A run is completed by `finalizeRunCompletion` or `completeRunFromMemoryState`, which roll up the
jobs in memory, or by `completeRunFromDbFallback`, which rolls up the rows. What a call is about
to write is its `TrackerPoint.verdict`, and it is what the row then has (`lookup_nextOf_verdict`).

A run in memory also knows whether drift was detected (`RunState.failsOnDrift`), which no row of
a job says. If the jobs in memory are those of the rows (`RunState.Agrees`), the verdicts are the
same just when there is no job, the run does not fail on drift, or a job has failed anyway
(`verdict_fallbackJobs_iff`).
-/

namespace Kici

open TrackerPoint List

/-! ## Rolling up -/

section RollUp

variable {jobs jobs' : List ExecutionJobStatus}

/-- The order of the jobs does not matter. -/
theorem rollUp_perm (h : jobs.Perm jobs') : rollUp jobs = rollUp jobs' := by
  rw [rollUp, rollUp, h.any_eq]
  simp only [h.mem_iff]

theorem computeFailureClass_perm (status : ExecutionRunStatus) (h : jobs.Perm jobs') :
    computeFailureClass status jobs = computeFailureClass status jobs' := by
  rw [computeFailureClass, computeFailureClass, h.any_eq]

theorem rollUp_eq_failed_iff : rollUp jobs = .failed ↔ ∃ status ∈ jobs, isFailureStatus status := by
  rw [rollUp, ← any_eq_true]
  split
  · next hany => exact iff_of_true rfl hany
  · next hany =>
    refine iff_of_false ?_ hany
    split <;> decide

end RollUp

namespace RunState

variable (run : RunState)

/-- The jobs in memory are those of the rows, with the statuses of the rows. -/
def Agrees (rows : List RunJob) : Prop :=
  (run.jobs.map fun j => (j.jobId, j.status)).Perm (rows.map fun row => (row.jobId, row.status))

instance (rows : List RunJob) : Decidable (run.Agrees rows) :=
  inferInstanceAs (Decidable (Perm _ _))

/-- How a run in memory ended, and why. -/
def verdict : ExecutionRunStatus × Option RunFailureClass :=
  (run.computeRunStatus, computeFailureClass run.computeRunStatus (run.jobs.map (·.status)))

variable {run}

theorem Agrees.statuses {rows : List RunJob} (h : run.Agrees rows) :
    (run.jobs.map (·.status)).Perm (rows.map (·.status)) := by
  have hsnd := h.map Prod.snd
  rwa [map_map, map_map] at hsnd

/-- Drift makes no difference to a run in which a job has failed. -/
theorem computeRunStatus_eq_rollUp_iff : run.computeRunStatus = rollUp (run.jobs.map (·.status)) ↔
    (run.failsOnDrift → ∃ job ∈ run.jobs, isFailureStatus job.status) := by
  rw [computeRunStatus]
  split
  · next hdrift =>
    rw [eq_comm, rollUp_eq_failed_iff, imp_iff_right hdrift]
    simp only [mem_map, exists_exists_and_eq_and]
  · next hdrift => exact iff_of_true rfl fun h => absurd h hdrift

end RunState

/-! ## What a call is about to write -/

/-- The status and the failure class that a call is about to write. -/
def TrackerPoint.verdict : TrackerPoint → Option (ExecutionRunStatus × Option RunFailureClass)
  | .finalizeWrite status _ failureClass => some (status, failureClass)
  | .memoryWrite status _ failureClass => some (status, failureClass)
  | .fallbackRun status failureClass => some (status, failureClass)
  | .fallbackWrite status _ failureClass => some (status, failureClass)
  | _ => none

namespace TrackerState

variable {κ : Type} {s : TrackerState κ} {c : κ} {runId : String} {live : Bool} {ref : ℕ}
  {run : RunState}

theorem verdict_finalizeRunCompletion (hrun : s.objects[ref]? = some run) :
    (s.finalizeRunCompletion ref).2.bind verdict = some run.verdict := by
  rw [finalizeRunCompletion, hrun]
  rfl

theorem verdict_completeRunFromMemoryState :
    (s.completeRunFromMemoryState ref run).2.bind verdict = some run.verdict := rfl

variable [DecidableEq κ] {instanceId : κ → Option String}

/-- The fallback rolls up the rows, if there are some and all are over. -/
theorem verdict_fallbackJobs : (s.nextOf instanceId c runId live .fallbackJobs).2.bind verdict =
    if s.db.jobsOf runId ≠ [] ∧
    (s.db.jobsOf runId).all (fun row => row.status ∈ TERMINAL_JOB_STATES) then
      some (rollUp ((s.db.jobsOf runId).map (·.status)),
        computeFailureClass (rollUp ((s.db.jobsOf runId).map (·.status)))
        ((s.db.jobsOf runId).map (·.status)))
    else none := by
  rw [nextOf]
  split <;> rfl

/-- Whatever the fallback is about to write, the other ways to complete the run would write. -/
theorem verdict_fallbackJobs_iff (hrun : s.objects[ref]? = some run)
    (hagrees : run.Agrees (s.db.jobsOf runId))
    (hover : ∀ job ∈ run.jobs, job.status ∈ TERMINAL_JOB_STATES) :
    (∀ verdict, (s.nextOf instanceId c runId live .fallbackJobs).2.bind TrackerPoint.verdict =
      some verdict → (s.finalizeRunCompletion ref).2.bind TrackerPoint.verdict = some verdict ∧
      (s.completeRunFromMemoryState ref run).2.bind TrackerPoint.verdict = some verdict) ↔
    (run.jobs ≠ [] → run.failsOnDrift → ∃ job ∈ run.jobs, isFailureStatus job.status) := by
  have hstatuses := hagrees.statuses
  have hjobs : s.db.jobsOf runId ≠ [] ↔ run.jobs ≠ [] := by
    rw [← length_pos_iff, ← length_pos_iff, ← length_map, ← hstatuses.length_eq, length_map]
  have hrows : (s.db.jobsOf runId).all (fun row => row.status ∈ TERMINAL_JOB_STATES) := by
    rw [all_eq_true]
    intro row hrow
    have hmem : row.status ∈ run.jobs.map (·.status) := hstatuses.mem_iff.2 (mem_map_of_mem hrow)
    obtain ⟨job, hjob, hstatus⟩ := mem_map.1 hmem
    exact decide_eq_true (hstatus ▸ hover job hjob)
  rw [verdict_finalizeRunCompletion hrun, verdict_completeRunFromMemoryState, verdict_fallbackJobs]
  by_cases hempty : run.jobs = []
  · rw [if_neg fun h => absurd hempty (hjobs.1 h.1)]
    exact iff_of_true (fun _ h => absurd h.symm (Option.some_ne_none _)) fun h => absurd hempty h
  · rw [if_pos ⟨hjobs.2 hempty, hrows⟩, imp_iff_right hempty, ← computeFailureClass_perm _ hstatuses,
      ← rollUp_perm hstatuses, ← RunState.computeRunStatus_eq_rollUp_iff]
    constructor
    · intro h
      have hverdict := Option.some.inj (h _ rfl).1
      exact congrArg Prod.fst hverdict
    · intro h verdict hverdict
      rw [← hverdict, ← h]
      exact ⟨rfl, rfl⟩

/-- A run with one job, in which drift was detected. -/
def driftRun (status : ExecutionJobStatus) : RunState where
  jobs := [{ jobId := "job-1", name := "plan", status }]
  checkMode := some .checkFailOnDrift
  driftDetected := true

/-- The run in memory and in its rows. -/
def driftState (status : ExecutionJobStatus) : TrackerState Unit where
  db := {
    executionRuns := .singleton _ { runId := "run-1", status := .running }
    executionJobs := .singleton _ { runId := "run-1", jobId := "job-1", jobName := "plan", status } }
  objects := [driftRun status]
  runs := fun _ _ => some 0

/-- A job that failed makes the verdicts the same. -/
theorem verdict_fallbackJobs_iff_failed :
    ((driftState .failed).nextOf (fun _ => none) () "run-1" false .fallbackJobs).2.bind verdict =
        some (.failed, some .step_failure) ∧
      ((driftState .failed).finalizeRunCompletion 0).2.bind verdict =
        some (.failed, some .step_failure) ∧
      ((driftState .failed).completeRunFromMemoryState 0 (driftRun .failed)).2.bind verdict =
        some (.failed, some .step_failure) := by
  have hfallback : ((driftState .failed).nextOf (fun _ => none) () "run-1" false .fallbackJobs).2.bind
      verdict = some (.failed, some .step_failure) := by decide
  have hfailed : ∃ job ∈ (driftRun .failed).jobs, isFailureStatus job.status :=
    ⟨_, mem_singleton_self _, rfl⟩
  exact ⟨hfallback, (verdict_fallbackJobs_iff rfl (by decide) (by decide)).2 (fun _ _ => hfailed)
    _ hfallback⟩

/-- The rows of a run that fails on drift say that it succeeded. -/
theorem exists_verdict_fallbackJobs_ne : ∃ (s : TrackerState Unit) (run : RunState),
    s.objects[0]? = some run ∧ run.Agrees (s.db.jobsOf "run-1") ∧
    (∀ job ∈ run.jobs, job.status ∈ TERMINAL_JOB_STATES) ∧
    (s.nextOf (fun _ => none) () "run-1" false .fallbackJobs).2.bind verdict = some (.success, none) ∧
    (s.finalizeRunCompletion 0).2.bind verdict = some (.failed, some .step_failure) ∧
    (s.completeRunFromMemoryState 0 run).2.bind verdict = some (.failed, some .step_failure) :=
  ⟨driftState .success, driftRun .success, rfl, by decide, by decide, by decide, by decide, by decide⟩

end TrackerState

end Kici
