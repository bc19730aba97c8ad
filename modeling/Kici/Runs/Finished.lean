import Kici.Runs.Tracker

/-!
# Runs that are over

The execution tracker does not write over a run that is over: its updates ask for a status that
is not final. The one of `failRun` does not, so that a run keeps its status as long as
`failRun` meets none that was successful or cancelled (`finished_stays_finished`).
-/

namespace Kici

open ExecutionRun TrackerState RunsDb

variable {κ : Type} [DecidableEq κ] {instanceId : κ → Option String}

namespace TrackerState

/-- A step of the tracker. Other code may write the runs that are not over. -/
def OfTracker (s : TrackerState κ) : TrackerAction κ → Prop
  | .writeRun runId _ => ∀ status ∈ s.db.statusOf runId, status ∉ TERMINAL_RUN_STATES
  | _ => True

/-- A step that is not the write of `failRun` to a run that was successful or cancelled. -/
def FailsOnlyUnfinished (s : TrackerState κ) : TrackerAction κ → Prop
  | .next k _ => ∀ call ∈ s.calls[k]?, ∀ run reason, call.point = .failWrite (.failRun run) reason →
      s.db.statusOf call.runId ≠ some .success ∧ s.db.statusOf call.runId ≠ some .cancelled
  | _ => True

end TrackerState

/-- The runs that are over keep their statuses. -/
def RunsDb.FinishedKept (db db' : RunsDb) : Prop :=
  ∀ runId status, db.statusOf runId = some status → status ∈ TERMINAL_RUN_STATES →
    db'.statusOf runId = some status

namespace RunsDb

variable {db db' db'' : RunsDb} {u : Update runId}

theorem FinishedKept.of_eq (h : ∀ runId, db'.statusOf runId = db.statusOf runId) : db.FinishedKept db' :=
  fun runId _ hstatus _ => (h runId).trans hstatus

theorem FinishedKept.trans (h : db.FinishedKept db') (h' : db'.FinishedKept db'') :
    db.FinishedKept db'' :=
  fun runId status hstatus hterminal => h' runId status (h runId status hstatus hterminal) hterminal

theorem finishedKept_updateRuns (h : u.KeepsFinished) : db.FinishedKept (db.updateRuns u) :=
  fun _ _ => statusOf_updateRuns_of_finished fun row _ => h row

theorem finishedKept_upsertRun {row : ExecutionRun} (h : u.KeepsFinished) :
    db.FinishedKept (db.upsertRun row u) := fun _ _ => statusOf_upsertRun_of_finished fun row _ => h row

/-- `failRun` leaves the runs that failed, and the other runs. -/
theorem finishedKept_failRunUpdate {runId : String} {reason : JsString}
    (hsuccess : db.statusOf runId ≠ some .success) (hcancelled : db.statusOf runId ≠ some .cancelled) :
    db.FinishedKept (db.updateRuns (failRunUpdate runId reason)) := by
  refine fun _ _ => statusOf_updateRuns_of_finished fun row hrow hg hterminal => ?_
  obtain rfl : row.runId = runId := of_decide_eq_true hg
  rw [statusOf, Table.lookup_of_mem hrow, Option.map_some] at hsuccess hcancelled
  -- Of the three final statuses only `failed` is left.
  simp only [TERMINAL_RUN_STATES, List.mem_cons, List.not_mem_nil, or_false] at hterminal
  rcases hterminal with h | h | h
  · exact absurd (congrArg some h) hsuccess
  · rw [h]
    rfl
  · exact absurd (congrArg some h) hcancelled

end RunsDb

namespace TrackerState

variable {s t : TrackerState κ} {c : κ} {runId : String} {live : Bool} {point : TrackerPoint}

omit [DecidableEq κ] in
theorem finishedKept_clearWindow : s.db.FinishedKept (s.clearWindow instanceId c runId).db := by
  rw [clearWindow.eq_def]
  split
  · exact finishedKept_updateRuns (keepsFinished_of_set fun _ => rfl)
  · exact .of_eq fun _ => rfl

/-- A call that goes on leaves the runs that are over, unless it is the write of `failRun`. -/
theorem finishedKept_nextOf (h : ∀ run reason, point = .failWrite (.failRun run) reason →
      s.db.statusOf runId ≠ some .success ∧ s.db.statusOf runId ≠ some .cancelled) :
    s.db.FinishedKept (s.nextOf instanceId c runId live point).1.db := by
  have hrefl : s.db.FinishedKept s.db := .of_eq fun _ => rfl
  cases point with
  | openWindow =>
    simp only [nextOf]
    split
    · exact finishedKept_updateRuns (keepsFinished_of_set fun _ => rfl)
    · exact hrefl
  | clearWindow released =>
    simp only [nextOf]
    split
    · split <;> exact finishedKept_clearWindow
    · exact finishedKept_clearWindow
  | syncRunJobsFromRows ref ready =>
    simp only [nextOf]
    split
    · split
      · exact hrefl
      · rwa [readyToFinalize_fst]
    · exact hrefl
  | window caller =>
    simp only [nextOf]
    split
    · split
      · simpa using hrefl
      · exact hrefl
    · simpa using hrefl
  | liveInstance caller =>
    simp only [nextOf]
    split
    · exact hrefl
    · simpa using hrefl
  | finalizeWrite =>
    simp only [nextOf]
    split <;> exact finishedKept_updateRuns finalizeUpdate_keepsFinished
  | memoryWrite | fallbackWrite =>
    simp only [nextOf]
    split <;> exact finishedKept_updateRuns staleUpdate_keepsFinished
  | fallbackJobs | fallbackRun =>
    simp only [nextOf]
    split <;> exact hrefl
  | fallbackStamp | neverStartedForward =>
    rw [nextOf, modifyRun_db]
    exact hrefl
  | staleReason finisher status failureReason failureClass write =>
    simp only [nextOf]
    cases failureReason with
    | none => exact hrefl
    | some reason => exact finishedKept_updateRuns (keepsFinished_of_set fun _ => rfl)
  | forward | heldForward | heldForget => exact hrefl
  | failWrite path failureReason =>
    cases path with
    | onBuildFailed =>
      simp only [nextOf]
      split <;> exact finishedKept_updateRuns buildFailedUpdate_keepsFinished
    | failRun run =>
      obtain ⟨hsuccess, hcancelled⟩ := h run failureReason rfl
      simp only [nextOf]
      split <;> exact finishedKept_failRunUpdate hsuccess hcancelled
  | failClearWindow => exact finishedKept_clearWindow
  | failJobs => exact .of_eq fun _ => rfl
  | failForward path failureReason write =>
    cases path with
    | onBuildFailed | failRun =>
      simp only [nextOf]
      split <;> exact hrefl
  | neverStartedWrite =>
    simp only [nextOf]
    split <;> exact finishedKept_upsertRun neverStartedUpdate_keepsFinished
  | heldWrite isGlobalEvalRound =>
    exact finishedKept_upsertRun heldUpdate_keepsFinished

/-- A step of the tracker leaves the runs that are over, unless it is the write of `failRun`. -/
theorem finishedKept_step {a : TrackerAction κ} (hof : s.OfTracker a) (hok : s.FailsOnlyUnfinished a)
    (h : s.step instanceId a = some t) : s.db.FinishedKept t.db := by
  have hrefl : s.db.FinishedKept s.db := .of_eq fun _ => rfl
  cases a with
  | onExecutionStarted c runId checkMode jobs =>
    simp only [step] at h
    split at h
    · split at h <;> cases h <;> exact hrefl
    · cases h
      exact hrefl
  | recoverRunFromDb c runId checkMode driftDetected =>
    simp only [step] at h
    split at h
    · split at h
      · cases h
      · cases h
        exact hrefl
    · cases h
  | setJob | deleteJob | detectDrift | setRunStatus | releaseRunFinishedElsewhere =>
    cases h
    simpa using hrefl
  | holdRunForPendingJobs c runId =>
    have hedited : s.db.FinishedKept (s.modifyRun c runId (·.holdForPendingJobs)).db := by
      rwa [modifyRun_db]
    simp only [step] at h
    split at h <;> cases h <;> exact hedited
  | releasePendingJobsHold c runId =>
    simp only [step] at h
    split at h
    · cases h
      exact hrefl
    · split at h
      · cases h
        exact hrefl
      · split at h <;> cases h <;> exact hrefl
  | checkCompletion c runId =>
    simp only [step] at h
    split at h
    · cases h
    · next ref _ =>
      have hfst : (s.readyToFinalize c runId ref).1 = s := readyToFinalize_fst
      split at h <;> next heq =>
        rw [heq] at hfst
        cases hfst
        cases h
        exact hrefl
  | prune | completeRunIfAllJobsTerminal | onBuildFailed | failRun | recordNeverStartedRun
  | recordRunHeld =>
    cases h
    exact hrefl
  | claimHeldGlobalEvalRound runId =>
    cases h
    exact finishedKept_updateRuns claimRoundUpdate_keepsFinished
  | completeReleasedGlobalEvalRound c runId reason =>
    cases h
    rw [writeAndForward_db]
    exact finishedKept_updateRuns settleRoundUpdate_keepsFinished
  | resumeHeldRun runId =>
    cases h
    exact finishedKept_updateRuns resumeUpdate_keepsFinished
  | cancelHeldRun c runId reason =>
    cases h
    rw [writeAndForward_db]
    exact finishedKept_updateRuns cancelHeldUpdate_keepsFinished
  | cancelJoblessRun c runId reason =>
    cases h
    rw [writeAndForward_db]
    exact finishedKept_updateRuns cancelJoblessUpdate_keepsFinished
  | persistJobStatus job =>
    cases h
    exact .of_eq fun _ => statusOf_persistJobStatus
  | deleteJobRow =>
    cases h
    exact .of_eq fun _ => rfl
  | writeRun runId status =>
    cases h
    refine fun _ _ => statusOf_upsertRun_of_finished fun row hrow hg hterminal => ?_
    obtain rfl : row.runId = runId := of_decide_eq_true hg
    refine absurd hterminal (hof row.status ?_)
    rw [statusOf, Table.lookup_of_mem hrow]
    rfl
  | next k live =>
    simp only [step] at h
    split at h
    · next call hcall =>
      cases h
      refine finishedKept_nextOf fun run reason hpoint => ?_
      exact hok call hcall run reason hpoint
    · cases h

end TrackerState

/-- A run that is over keeps its status, whatever the tracker does, as long as `failRun` meets
none that was successful or cancelled. -/
theorem finished_stays_finished {s t : TrackerState κ} {runId : String} {status : ExecutionRunStatus}
    (h : (trackerSystem instanceId).Path (fun s a => s.OfTracker a ∧ s.FailsOnlyUnfinished a) s t)
    (hstatus : s.db.statusOf runId = some status) (hterminal : status ∈ TERMINAL_RUN_STATES) :
    t.db.statusOf runId = some status :=
  h.relates (R := fun s t => s.db.FinishedKept t.db) (fun _ => .of_eq fun _ => rfl)
    (fun _ _ _ => FinishedKept.trans)
    (fun _ _ _ hok hstep => finishedKept_step hok.1 hok.2 hstep) runId status hstatus hterminal

/-! ## Running the system -/

/-- A run with a row, of which nothing is in memory. -/
def runWithStatus (status : ExecutionRunStatus) : TrackerState String where
  db := {
    executionRuns := (Table.empty _).insertNew { runId := "run", status }
    executionJobs := Table.empty _ }

/-- A test for steps of the tracker in which `failRun` spares the runs that are over. -/
def sparesFinishedTest (s : TrackerState String) : TrackerAction String → Bool
  | .writeRun .. => false
  | .next k _ =>
    match s.calls[k]? with
    | some ⟨_, runId, .failWrite (.failRun _) _⟩ =>
      s.db.statusOf runId ≠ some .success && s.db.statusOf runId ≠ some .cancelled
    | _ => true
  | _ => true

theorem sparesFinished_of_test (s : TrackerState String) (a : TrackerAction String)
    (h : sparesFinishedTest s a = true) : s.OfTracker a ∧ s.FailsOnlyUnfinished a := by
  cases a with
  | writeRun => cases h
  | next k live =>
    refine ⟨trivial, fun call hcall run reason hpoint => ?_⟩
    obtain ⟨c, runId, point⟩ := call
    obtain rfl : point = .failWrite (.failRun run) reason := hpoint
    rw [Option.mem_def] at hcall
    simpa [sparesFinishedTest, hcall] using h
  | _ => exact ⟨trivial, trivial⟩

/-- A build that is found to have failed too late leaves a run that was successful. -/
theorem finished_stays_finished_success : ∃ t : TrackerState String,
    .forwarded .onBuildFailed "run" .failed (some "Build job failed") none (some .success) 0 ∈ t.events ∧
    t.db.statusOf "run" = some .success := by
  obtain ⟨t, hpath, ht⟩ := (trackerSystem some).exists_path (runWithStatus .success)
      (fun t => .forwarded .onBuildFailed "run" .failed (some "Build job failed") none (some .success)
        0 ∈ t.events)
    sparesFinished_of_test
      [.onExecutionStarted "a" "run" none [], .onBuildFailed "a" "run" none, .next 0 false,
        .next 0 false, .next 0 false, .next 0 false]
      (by decide)
  exact ⟨t, ht, finished_stays_finished hpath rfl (by decide)⟩

theorem ofTracker_of_test {s : TrackerState String} {a : TrackerAction String}
    (h : (match a with | .writeRun .. => false | _ => true) = true) : s.OfTracker a := by
  cases a with
  | writeRun => cases h
  | _ => trivial

/-- A run that was cancelled fails. -/
theorem exists_finished_left : ¬∀ (s t : TrackerState String) (runId : String)
    (status : ExecutionRunStatus), (trackerSystem some).Path OfTracker s t →
    s.db.statusOf runId = some status → status ∈ TERMINAL_RUN_STATES →
    t.db.statusOf runId = some status := by
  intro h
  obtain ⟨t, u, -, htu, hu⟩ : ∃ t u, (trackerSystem some).Path OfTracker
      (runWithStatus .pending) t ∧ (trackerSystem some).Path OfTracker t u ∧
      decide (t.db.statusOf "run" = some .cancelled ∧ u.db.statusOf "run" = some .failed) = true :=
    System.exists_paths_of_run (fun _ _ => ofTracker_of_test)
      [.cancelJoblessRun "a" "run" "Cancelled by user"]
      [.failRun "b" "run" "Workflow dispatch failed", .next 0 false]
      (by decide)
  obtain ⟨hcancelled, hfailed⟩ := of_decide_eq_true hu
  rw [h t u "run" .cancelled htu hcancelled (by decide)] at hfailed
  cases hfailed

end Kici
