import Kici.Runs.Completion

/-!
# Replaying runs

When a coordinator reconnects, it replays the runs it has in memory (`getReplayData`). How a run
ended is not kept there: it is rolled up again, and a run that is not complete is replayed as one
that goes on.

* `AuthoredState`: the trackers, with the coordinator that gave the row of a run its status when
  it completed the run;
* `KeepsVerdict`: a step that leaves the jobs, the tokens and the drift of runs that were decided as
  they are in memory, and does not decide a run past its memory;
* `status_replay_eq`: if all steps are such, what a coordinator replays of a run is the status
  that it wrote.
-/

namespace Kici

open List Option ExecutionRun RunsDb TrackerAction

variable {caller : WindowCaller}

/-- What is replayed of a run. -/
structure ReplayedRun where
  runId : String
  status : ExecutionRunStatus
  failureReason : Option JsString
  failureClass : Option RunFailureClass
  jobCount : ℕ
  /-- Whether `completedAt` is set. -/
  completedAt : Bool
  jobs : List TrackedJob

namespace RunState

variable (run : RunState)

def replay (runId : String) : ReplayedRun where
  runId
  status := if run.isComplete then run.computeRunStatus else run.status
  failureReason := run.failureReason.filter (· ≠ [])
  failureClass :=
    if run.isComplete then computeFailureClass run.computeRunStatus (run.jobs.map (·.status)) else none
  jobCount := run.jobs.length
  completedAt := run.completedAt
  jobs := run.jobs

/-- A run in memory is complete, and its jobs and the drift in it say that it ended so. -/
def EndedAs (status : ExecutionRunStatus) : Prop :=
  run.isComplete ∧ status = if run.failsOnDrift then .failed else rollUp (run.jobs.map (·.status))

instance (status : ExecutionRunStatus) : Decidable (run.EndedAs status) :=
  inferInstanceAs (Decidable (_ ∧ _))

variable {run} {status : ExecutionRunStatus}

theorem endedAs_computeRunStatus (h : run.isComplete) : run.EndedAs run.computeRunStatus := ⟨h, rfl⟩

/-- What is replayed as over is what the memory rolls up to. -/
theorem status_replay_eq_iff {runId : String} (hterminal : status ∈ TERMINAL_RUN_STATES) :
    (run.replay runId).status = status ↔ run.EndedAs status := by
  rw [EndedAs, ← computeRunStatus, replay]
  split
  · next hcomplete => rw [and_iff_right hcomplete, eq_comm]
  · next hcomplete =>
    refine iff_of_false (fun h => ?_) fun h => absurd h.1 hcomplete
    have hlive := run.status.2
    have hstatus : (run.status : ExecutionRunStatus) = status := h
    rw [hstatus] at hlive
    revert hterminal hlive
    cases status <;> decide

/-- The statuses of the jobs, the tokens and the drift of a run stay as they are. -/
structure SameJobs (run run' : RunState) : Prop where
  statuses : run'.jobs.map (·.status) = run.jobs.map (·.status)
  tokens : run'.pendingJobRegistrations = run.pendingJobRegistrations
  drift : run'.failsOnDrift = run.failsOnDrift

theorem SameJobs.endedAs {run run' : RunState} (h : run.SameJobs run') (hended : run.EndedAs status) :
    run'.EndedAs status := by
  have hcomplete (run : RunState) : run.isComplete ↔ run.pendingJobRegistrations = 0 ∧
      (∀ status ∈ run.jobs.map (·.status), status ∈ TERMINAL_JOB_STATES) ∧
        run.jobs.map (·.status) ≠ [] := by
    simp [isComplete]
  rw [EndedAs, hcomplete, h.tokens, h.statuses, h.drift, ← hcomplete]
  exact hended

/-- Whatever a run ended as, it still does. -/
def KeepsEnd (run run' : RunState) : Prop := ∀ status, run.EndedAs status → run'.EndedAs status

theorem KeepsEnd.refl (run : RunState) : run.KeepsEnd run := fun _ h => h

end RunState

/-! ## Who completed a run -/

/-- Whether a call is about to write how a run ended. -/
def TrackerPoint.completes : TrackerPoint → Bool
  | .finalizeWrite .. | .memoryWrite .. | .fallbackWrite .. | .neverStartedWrite _ => true
  | _ => false

/-- How a run ended, for a call that has rolled up the memory and is about to write it. -/
def TrackerPoint.decided : TrackerPoint → Option ExecutionRunStatus
  | .finalizeWrite status .. | .memoryWrite status .. => some status
  | _ => none

/-- How a run ended, for a call that did not look at the memory and is about to write it. -/
def TrackerPoint.recorded : TrackerPoint → Option ExecutionRunStatus
  | .fallbackWrite status .. => some status
  | .neverStartedWrite _ => some .failed
  | _ => none

/-- The trackers, with the coordinator whose completion of a run gave its row the status. -/
structure AuthoredState (κ : Type) where
  tracker : TrackerState κ
  author : String → Option κ := fun _ => none

/-- Change the run at a place. -/
def editAt (ref : Option ℕ) (f : RunState → RunState) (ref' : ℕ) (run : RunState) : RunState :=
  if ref = some ref' then f run else run

namespace TrackerAction

variable {κ : Type} (s : TrackerState κ)

/-- What an action makes of the jobs, the tokens and the drift of a run in memory. -/
def edit : TrackerAction κ → ℕ → RunState → RunState
  | .onExecutionStarted c runId _ jobs =>
    editAt (if (s.run c runId).any (!·.completedAt) then s.runs c runId else none) fun run =>
      jobs.foldl (fun run job => if (run.job job.jobId).isSome then run else run.setJob job) run
  | .setJob c runId job => editAt (s.runs c runId) (·.setJob job)
  | .deleteJob c runId jobId => editAt (s.runs c runId) (·.deleteJob jobId)
  | .detectDrift c runId => editAt (s.runs c runId) fun run => { run with driftDetected := true }
  | .releaseRunFinishedElsewhere c runId => editAt (s.runs c runId) (·.releaseFinishedElsewhere)
  | .holdRunForPendingJobs c runId => editAt (s.runs c runId) (·.holdForPendingJobs)
  | .releasePendingJobsHold c runId =>
    editAt (if s.tokens c runId = 0 then none else s.runs c runId) (·.releaseHold)
  | .next k _ =>
    match s.calls[k]? with
    | some ⟨_, runId, .syncRunJobsFromRows ref _⟩ =>
      editAt (some ref) (TrackerState.foldRows (s.db.jobsOf runId))
    | _ => fun _ run => run
  | _ => fun _ run => run

/-- The run that an action puts into the memory of a coordinator. -/
def adds : TrackerAction κ → Option (κ × String)
  | .onExecutionStarted c runId _ _ =>
    if (s.run c runId).any (!·.completedAt) then none else some (c, runId)
  | .recoverRunFromDb c runId _ _ => some (c, runId)
  | _ => none

/-- Whether an action lets a call go on. -/
def isNext : TrackerAction κ → Bool
  | .next .. => true
  | _ => false

end TrackerAction

namespace AuthoredState

variable {κ : Type} (s : AuthoredState κ)

/-- A status that has not changed is from whom it was; one that a call wrote to complete the run
is from the coordinator of the call. -/
def nextAuthor (t : TrackerState κ) (a : TrackerAction κ) (runId : String) : Option κ :=
  if t.db.statusOf runId = s.tracker.db.statusOf runId then s.author runId
  else match a with
    | .next k _ => (s.tracker.calls[k]?).bind fun call =>
      if call.runId = runId ∧ call.point.completes then some call.coordinator else none
    | _ => none

/-- A coordinator has decided how a run ended: it is about to write it, or has written it. -/
def Decided (c : κ) (runId : String) (status : ExecutionRunStatus) : Prop :=
  (s.author runId = some c ∧ s.tracker.db.statusOf runId = some status ∧ status ∈ TERMINAL_RUN_STATES) ∨
    ∃ point, ⟨c, runId, point⟩ ∈ s.tracker.calls ∧ point.decided = some status

variable [DecidableEq κ] (instanceId : κ → Option String)

def step (a : TrackerAction κ) : Option (AuthoredState κ) :=
  (s.tracker.step instanceId a).map fun t => ⟨t, s.nextAuthor t a⟩

/-- A step that leaves the runs that were decided as they are in memory, and decides no run past its
memory. -/
structure KeepsVerdict (a : TrackerAction κ) : Prop where
  /-- It changes no status of a job, no token and no drift of a run that was decided. -/
  edits : ∀ c runId status ref run, s.Decided c runId status → s.tracker.runs c runId = some ref →
    s.tracker.objects[ref]? = some run → run.SameJobs (a.edit s.tracker ref run)
  /-- No run that was decided comes into memory again. -/
  adds : ∀ c runId status, s.Decided c runId status → a.adds s.tracker ≠ some (c, runId)
  /-- A run whose end is recorded without a look at the memory is not in it. -/
  records : ∀ k live call, a = .next k live → s.tracker.calls[k]? = some call →
    call.point.recorded.isSome = true →
    (∀ stored ∈ s.tracker.db.statusOf call.runId, stored ∉ TERMINAL_RUN_STATES) →
    s.tracker.run call.coordinator call.runId = none
  /-- A run that is finalized is complete, and the one in memory. -/
  finalizes : ∀ k live call ref run, a = .next k live → s.tracker.calls[k]? = some call →
    call.point = .window (.readyToFinalize ref) ∨ call.point = .liveInstance (.readyToFinalize ref) →
    ((s.tracker.nextOf instanceId call.coordinator call.runId live call.point).2.bind
      TrackerPoint.decided).isSome →
    s.tracker.run call.coordinator call.runId = some run →
    s.tracker.runs call.coordinator call.runId = some ref ∧ run.isComplete

end AuthoredState

/-- The trackers from any rows on, with no run in memory. -/
def replaySystem {κ : Type} [DecidableEq κ] (instanceId : κ → Option String) :
    System (AuthoredState κ) (TrackerAction κ) where
  init := {s | s.tracker ∈ (trackerSystem instanceId).init ∧ s.author = (fun _ => none) ∧
    s.tracker.runs = fun _ _ => none}
  step s a := s.step instanceId a

/-- The entry of a run in what a coordinator replays. -/
def TrackerState.getReplayData {κ : Type} (s : TrackerState κ) (c : κ) (runId : String) :
    Option ReplayedRun :=
  (s.run c runId).map (·.replay runId)

/-- A write that changes the status of a run gives it the one it sets, and finds it not over. -/
theorem RunsDb.statusOf_updateRuns_of_ne {db : RunsDb} {u : Update runId} {runId : String}
    {status : ExecutionRunStatus} (hkeeps : u.KeepsFinished) (hset : ∀ row, (u.set row).status = status)
    (hchanged : (db.updateRuns u).statusOf runId ≠ db.statusOf runId) :
    some status = (db.updateRuns u).statusOf runId ∧ ∀ stored ∈ db.statusOf runId,
    stored ∉ TERMINAL_RUN_STATES := by
  rw [statusOf_updateRuns, statusOf] at *
  cases hrow : db.executionRuns.lookup runId with
  | none =>
    rw [hrow] at hchanged
    exact absurd rfl hchanged
  | some row =>
    rw [hrow, map_some, map_some, Update.apply] at hchanged
    rw [map_some, map_some, Update.apply]
    split at hchanged
    · next hguard =>
      rw [if_pos hguard, hset]
      refine ⟨rfl, ?_⟩
      rintro _ ⟨⟩ hterminal
      exact hchanged (congrArg some (hkeeps row hguard hterminal))
    · exact absurd rfl hchanged

/-! ## What a step does to the memory -/

section Memory

variable {κ : Type}

namespace TrackerState

variable {s t : TrackerState κ} {c : κ} {runId : String} {ref : ℕ} {f : RunState → RunState}
  {edit : ℕ → RunState → RunState} {a : TrackerAction κ}

/-- No run comes into the memory of a coordinator, and those that stay are as they were, but for
an edit and for what does not matter to how they ended. -/
structure MemoryEdited (s t : TrackerState κ) (edit : ℕ → RunState → RunState) : Prop where
  runs : ∀ c runId ref, t.runs c runId = some ref → s.runs c runId = some ref
  objects : ∀ ref : ℕ, Option.Rel (fun run run' => (edit ref run).KeepsEnd run') s.objects[ref]?
    t.objects[ref]?

theorem MemoryEdited.of_eq (hruns : t.runs = s.runs) (hobjects : t.objects = s.objects) :
    s.MemoryEdited t fun _ run => run where
  runs c runId ref href := hruns ▸ href
  objects ref := by
    rw [hobjects]
    cases s.objects[ref]? with
    | none => exact .none
    | some run => exact .some (.refl run)

theorem memoryEdited_setRef [DecidableEq κ] : s.MemoryEdited (s.setRef c runId none) fun _ run =>
    run where
  runs c' runId' ref href := by
    simp only [setRef] at href
    split at href
    · cases href
    · exact href
  objects := (MemoryEdited.of_eq rfl rfl).objects

theorem memoryEdited_forward {finisher : Finisher} {status : ExecutionRunStatus}
    {failureReason : Option JsString} {failureClass : Option RunFailureClass} {write : RunWrite} :
    s.MemoryEdited (s.forward finisher c runId status failureReason failureClass write)
    fun _ run => run :=
  .of_eq rfl rfl

theorem memoryEdited_call {point : TrackerPoint} :
    s.MemoryEdited (s.call c runId point) fun _ run => run :=
  .of_eq rfl rfl

/-- A step that goes on from an edited memory. -/
theorem MemoryEdited.trans {u : TrackerState κ} (h : s.MemoryEdited t edit)
    (h' : t.MemoryEdited u fun _ run => run) : s.MemoryEdited u edit where
  runs c runId ref href := h.runs c runId ref (h'.runs c runId ref href)
  objects ref := by
    have hst := h.objects ref
    have htu := h'.objects ref
    generalize s.objects[ref]? = run, t.objects[ref]? = run', u.objects[ref]? = run'' at hst htu
    cases hst with
    | none =>
      cases htu
      exact .none
    | some hkeeps =>
      cases htu with
      | some hkeeps' => exact .some fun status hended => hkeeps' status (hkeeps status hended)

theorem memoryEdited_modify : s.MemoryEdited (s.modify ref f) (editAt (some ref) f) where
  runs _ _ _ href := href
  objects ref' := by
    rw [modify, getElem?_modify]
    cases s.objects[ref']? with
    | none => exact .none
    | some run =>
      refine .some fun status hended => ?_
      rw [editAt] at hended
      simpa only [some.injEq, apply_ite] using hended

theorem memoryEdited_modifyRun : s.MemoryEdited (s.modifyRun c runId f) (editAt (s.runs c runId) f) := by
  rw [modifyRun.eq_def]
  split
  · next ref href =>
    rw [href]
    exact memoryEdited_modify
  · next href =>
    rw [href]
    exact .of_eq rfl rfl

/-- A change that does not matter to how a run ended. -/
theorem memoryEdited_modify_of_keeps (h : ∀ run : RunState, run.KeepsEnd (f run)) :
    s.MemoryEdited (s.modify ref f) fun _ run => run where
  runs _ _ _ href := href
  objects ref' := by
    rw [modify, getElem?_modify]
    cases s.objects[ref']? with
    | none => exact .none
    | some run =>
      refine .some ?_
      split
      · exact h run
      · exact .refl run

theorem memoryEdited_modifyRun_of_keeps (h : ∀ run : RunState, run.KeepsEnd (f run)) :
    s.MemoryEdited (s.modifyRun c runId f) fun _ run => run := by
  rw [modifyRun.eq_def]
  split
  · exact memoryEdited_modify_of_keeps h
  · exact .of_eq rfl rfl

/-- Before a call writes how a run ended, it marks the run as completed at most. -/
theorem memoryEdited_afterWindow :
    s.MemoryEdited (s.afterWindow c runId caller).1 fun _ run => run := by
  cases caller with
  | readyToFinalize ref =>
    rw [afterWindow, finalizeRunCompletion.eq_def]
    split
    · exact .of_eq rfl rfl
    · exact memoryEdited_modify_of_keeps fun _ _ h => h
  | completeRunIfAllJobsTerminal =>
    rw [afterWindow, completeRun.eq_def]
    split
    · split
      · split
        · exact memoryEdited_modify_of_keeps fun _ _ h => h
        · exact .of_eq rfl rfl
      · exact .of_eq rfl rfl
    · exact .of_eq rfl rfl

variable {instanceId : κ → Option String} {live : Bool}

theorem memoryEdited_clearWindow : s.MemoryEdited (s.clearWindow instanceId c runId) fun _ run =>
    run := by
  rw [clearWindow.eq_def]
  split <;> exact .of_eq rfl rfl

variable [DecidableEq κ]

/-- A call that goes on edits a run in memory when it folds the rows of the jobs into it. -/
theorem memoryEdited_nextOf (point : TrackerPoint) :
    s.MemoryEdited (s.nextOf instanceId c runId live point).1 (match point with
      | .syncRunJobsFromRows ref _ => editAt (some ref) (foldRows (s.db.jobsOf runId))
      | _ => fun _ run => run) := by
  cases point with
  | openWindow | finalizeWrite | memoryWrite | fallbackJobs | fallbackRun | fallbackWrite
  | neverStartedWrite | staleReason =>
    simp only [nextOf]
    split <;> exact .of_eq rfl rfl
  | clearWindow released =>
    simp only [nextOf]
    split
    · split <;> exact memoryEdited_clearWindow
    · exact memoryEdited_clearWindow
  | syncRunJobsFromRows ref ready =>
    simp only [nextOf]
    split
    · split
      · exact memoryEdited_modify
      · rw [readyToFinalize_fst]
        exact memoryEdited_modify
    · exact memoryEdited_modify
  | window caller =>
    simp only [nextOf]
    split
    · split
      · exact memoryEdited_afterWindow
      · exact .of_eq rfl rfl
    · exact memoryEdited_afterWindow
  | liveInstance caller =>
    simp only [nextOf]
    split
    · exact .of_eq rfl rfl
    · exact memoryEdited_afterWindow
  | fallbackStamp => exact memoryEdited_modifyRun_of_keeps fun _ _ h => h
  | failWrite path =>
    cases path <;> simp only [nextOf] <;> split <;> exact .of_eq rfl rfl
  | failClearWindow => exact memoryEdited_clearWindow
  | failForward path failureReason write =>
    cases path <;> simp only [nextOf] <;> split
    · exact memoryEdited_forward.trans memoryEdited_setRef
    · exact .of_eq rfl rfl
    · exact memoryEdited_forward.trans memoryEdited_setRef
    · exact .of_eq rfl rfl
  | neverStartedForward failureReason write =>
    exact memoryEdited_forward.trans (memoryEdited_modifyRun_of_keeps fun _ _ h => h)
  | heldForward write => exact memoryEdited_forward.trans memoryEdited_setRef
  | heldForget => exact memoryEdited_setRef
  | forward | failJobs | heldWrite => exact .of_eq rfl rfl

/-- A step that adds no run edits the memory as its action says. -/
theorem memoryEdited_step (hadds : a.adds s = none) (hstep : s.step instanceId a = some t) :
    s.MemoryEdited t (a.edit s) := by
  cases a with
  | onExecutionStarted c runId checkMode jobs =>
    rw [adds] at hadds
    split at hadds
    · next hlive =>
      rw [edit, if_pos hlive]
      rw [run] at hlive
      simp only [step] at hstep
      split at hstep
      · next ref href =>
        rw [href, bind_some] at hlive
        rw [if_pos hlive] at hstep
        cases hstep
        rw [href]
        exact memoryEdited_modify
      · next href =>
        rw [href] at hlive
        cases hlive
    · cases hadds
  | recoverRunFromDb => cases hadds
  | setJob | deleteJob | detectDrift | releaseRunFinishedElsewhere =>
    cases hstep
    exact memoryEdited_modifyRun
  | setRunStatus =>
    cases hstep
    exact memoryEdited_modifyRun_of_keeps fun _ _ h => h
  | prune =>
    cases hstep
    exact memoryEdited_setRef
  | holdRunForPendingJobs c runId =>
    simp only [step] at hstep
    split at hstep <;> cases hstep
    · exact memoryEdited_modifyRun.trans memoryEdited_call
    · exact memoryEdited_modifyRun
  | releasePendingJobsHold c runId =>
    rw [edit]
    simp only [step] at hstep
    split at hstep
    · next href =>
      cases hstep
      rw [href, ite_self]
      exact memoryEdited_call
    · next ref href =>
      split at hstep
      · next hzero =>
        cases hstep
        rw [if_pos hzero]
        exact .of_eq rfl rfl
      · next hzero =>
        rw [if_neg hzero, href]
        split at hstep <;> cases hstep
        · exact memoryEdited_modify
        · exact memoryEdited_modify.trans memoryEdited_call
  | checkCompletion c runId =>
    simp only [step] at hstep
    split at hstep
    · cases hstep
    · next ref _ =>
      have hfst : (s.readyToFinalize c runId ref).1 = s := readyToFinalize_fst
      split at hstep <;> next heq => cases hstep; rw [heq] at hfst; cases hfst; exact .of_eq rfl rfl
  | completeReleasedGlobalEvalRound | cancelHeldRun | cancelJoblessRun =>
    cases hstep
    rw [writeAndForward]
    split <;> exact .of_eq rfl rfl
  | next k live =>
    simp only [step] at hstep
    split at hstep
    · next call hcall =>
      cases hstep
      obtain ⟨c, runId, point⟩ := call
      have hnext := @memoryEdited_nextOf κ s c runId instanceId live _ point
      rw [edit, hcall]
      refine .trans (t := (s.nextOf instanceId c runId live point).1) ?_ (.of_eq rfl rfl)
      cases point <;> exact hnext
    · cases hstep
  | completeRunIfAllJobsTerminal | onBuildFailed | failRun | recordNeverStartedRun | recordRunHeld
  | claimHeldGlobalEvalRound | resumeHeldRun | persistJobStatus | deleteJobRow | writeRun =>
    cases hstep
    exact .of_eq rfl rfl

omit [DecidableEq κ] in
/-- A step that adds a run edits none. -/
theorem edit_of_adds {added : κ × String} (hadds : a.adds s = some added) :
    a.edit s = fun _ run => run := by
  cases a with
  | onExecutionStarted c runId checkMode jobs =>
    rw [adds] at hadds
    split at hadds
    · cases hadds
    · next hlive =>
      rw [edit, if_neg hlive]
      rfl
  | recoverRunFromDb => rfl
  | _ => cases hadds

/-- A run that a step adds to a memory. -/
theorem addRun_step {added : κ × String} (hadds : a.adds s = some added)
    (hstep : s.step instanceId a = some t) : ∃ run, t = s.addRun added.1 added.2 run := by
  cases a with
  | onExecutionStarted c runId checkMode jobs =>
    rw [adds] at hadds
    split at hadds
    · cases hadds
    · next hlive =>
      cases hadds
      rw [run] at hlive
      simp only [step] at hstep
      split at hstep
      · next ref href =>
        rw [href, bind_some] at hlive
        rw [if_neg hlive] at hstep
        exact ⟨_, (some.inj hstep).symm⟩
      · exact ⟨_, (some.inj hstep).symm⟩
  | recoverRunFromDb c runId checkMode driftDetected =>
    cases hadds
    simp only [step] at hstep
    split at hstep
    · split at hstep
      · cases hstep
      · exact ⟨_, (some.inj hstep).symm⟩
    · cases hstep
  | _ => cases hadds

/-- The runs in memory are among those that ever were. -/
def InRange (s : TrackerState κ) : Prop :=
  ∀ c runId ref, s.runs c runId = some ref → ref < s.objects.length

theorem InRange.step (h : s.InRange) (hstep : s.step instanceId a = some t) : t.InRange := by
  intro c runId ref href
  cases hadds : a.adds s with
  | none =>
    have hedited := memoryEdited_step hadds hstep
    have hrel := hedited.objects ref
    rw [getElem?_eq_getElem (h c runId ref (hedited.runs c runId ref href))] at hrel
    generalize hrun : t.objects[ref]? = run at hrel
    cases hrel with
    | some => exact (List.getElem?_eq_some_iff.1 hrun).1
  | some added =>
    obtain ⟨run, rfl⟩ := addRun_step hadds hstep
    simp only [addRun, setRef, length_append, length_singleton] at href ⊢
    split at href
    · cases href
      exact Nat.lt_succ_self _
    · exact Nat.lt_succ_of_lt (h c runId ref href)

/-- A run that a step leaves in memory was added, or was there, but for an edit. -/
theorem run_step (hrange : s.InRange) (hstep : s.step instanceId a = some t)
    {c : κ} {runId : String} {run' : RunState} (hrun' : t.run c runId = some run') :
    a.adds s = some (c, runId) ∨ ∃ ref run, s.runs c runId = some ref ∧ s.objects[ref]? = some run ∧
      (a.edit s ref run).KeepsEnd run' := by
  obtain ⟨ref, href, hobject⟩ := bind_eq_some_iff.1 hrun'
  cases hadds : a.adds s with
  | none =>
    have hedited := memoryEdited_step hadds hstep
    have hrel := hedited.objects ref
    rw [hobject] at hrel
    generalize hrun : s.objects[ref]? = run at hrel
    cases hrel with
    | some hkeeps => exact .inr ⟨ref, _, hedited.runs c runId ref href, hrun, hkeeps⟩
  | some added =>
    obtain ⟨run, rfl⟩ := addRun_step hadds hstep
    simp only [addRun, setRef] at href hobject
    split at href
    · next heq => exact .inl (congrArg some (Prod.ext heq.1.symm heq.2.symm))
    · rw [getElem?_append_left (hrange c runId ref href)] at hobject
      refine .inr ⟨ref, run', href, hobject, ?_⟩
      rw [edit_of_adds hadds]
      exact .refl run'

/-! ## What a step decides -/

variable {point point' : TrackerPoint} {status : ExecutionRunStatus}

/-- A call that is about to write how a run ended was about to, or has just rolled it up. -/
theorem mem_calls_step (hdecided : point.decided = some status)
    (hstep : s.step instanceId a = some t) (hcall : ⟨c, runId, point⟩ ∈ t.calls) :
    ⟨c, runId, point⟩ ∈ s.calls ∨
    ∃ k live point₀, a = .next k live ∧ s.calls[k]? = some ⟨c, runId, point₀⟩ ∧
      (s.nextOf instanceId c runId live point₀).2 = some point := by
  -- No call starts by writing.
  have hstart : ∀ {s : TrackerState κ} {c₀ runId₀ point₀}, TrackerPoint.decided point₀ = none →
      ⟨c, runId, point⟩ ∈ (s.call c₀ runId₀ point₀).calls → ⟨c, runId, point⟩ ∈ s.calls := by
    intro s c₀ runId₀ point₀ hnone hmem
    rcases mem_append.1 hmem with hmem | hmem
    · exact hmem
    · cases mem_singleton.1 hmem
      rw [hnone] at hdecided
      cases hdecided
  cases a with
  | next k live =>
    simp only [step] at hstep
    split at hstep
    · next call hget =>
      cases hstep
      rcases mem_append.1 hcall with hcall | hcall
      · rcases mem_append.1 hcall with hcall | hcall
        · exact .inl (mem_of_mem_take hcall)
        · obtain ⟨point', hnext, heq⟩ := map_eq_some_iff.1 (mem_toList.1 hcall)
          cases heq
          exact .inr ⟨k, live, call.point, rfl, hget, hnext⟩
      · exact .inl (mem_of_mem_drop hcall)
    · cases hstep
  | onExecutionStarted =>
    simp only [step] at hstep
    split at hstep
    · split at hstep <;> cases hstep <;> exact .inl hcall
    · cases hstep
      exact .inl hcall
  | recoverRunFromDb =>
    simp only [step] at hstep
    split at hstep
    · split at hstep <;> cases hstep
      exact .inl hcall
    · cases hstep
  | holdRunForPendingJobs =>
    simp only [step] at hstep
    split at hstep <;> cases hstep
    · exact .inl (modifyRun_calls ▸ hstart rfl hcall)
    · exact .inl (modifyRun_calls ▸ hcall)
  | releasePendingJobsHold =>
    simp only [step] at hstep
    split at hstep
    · cases hstep
      exact .inl (hstart rfl hcall)
    · split at hstep
      · cases hstep
        exact .inl hcall
      · split at hstep <;> cases hstep
        · exact .inl hcall
        · exact .inl (hstart rfl hcall)
  | checkCompletion c' runId' =>
    simp only [step] at hstep
    split at hstep
    · cases hstep
    · next ref _ =>
      rw [readyToFinalize] at hstep
      split at hstep
      · next heq =>
        cases hstep
        split at heq <;> cases heq
        exact .inl (hstart rfl hcall)
      · next heq =>
        cases hstep
        split at heq <;> cases heq
        exact .inl hcall
  | setJob | deleteJob | detectDrift | setRunStatus | releaseRunFinishedElsewhere =>
    cases hstep
    exact .inl (modifyRun_calls ▸ hcall)
  | completeRunIfAllJobsTerminal | onBuildFailed | failRun | recordNeverStartedRun | recordRunHeld =>
    cases hstep
    exact .inl (hstart rfl hcall)
  | completeReleasedGlobalEvalRound | cancelHeldRun | cancelJoblessRun =>
    cases hstep
    rw [writeAndForward] at hcall
    split at hcall <;> exact .inl hcall
  | prune | claimHeldGlobalEvalRound | resumeHeldRun | persistJobStatus | deleteJobRow | writeRun =>
    cases hstep
    exact .inl hcall

omit [DecidableEq κ] in
theorem decided_afterWindow (hnext : (s.afterWindow c runId caller).2 = some point')
    (hdecided : point'.decided = some status) : ∃ ref run, s.objects[ref]? = some run ∧
      status = run.computeRunStatus ∧
      (caller = .readyToFinalize ref ∨ s.runs c runId = some ref ∧ run.isComplete) := by
  cases caller with
  | readyToFinalize ref =>
    rw [afterWindow, finalizeRunCompletion.eq_def] at hnext
    split at hnext
    · cases hnext
    · next run hrun =>
      cases hnext
      exact ⟨ref, run, hrun, (some.inj hdecided).symm, .inl rfl⟩
  | completeRunIfAllJobsTerminal =>
    rw [afterWindow, completeRun.eq_def] at hnext
    split at hnext
    · next ref href =>
      split at hnext
      · next run hrun =>
        split at hnext <;> cases hnext
        · next hcomplete => exact ⟨ref, run, hrun, (some.inj hdecided).symm, .inr ⟨href, hcomplete⟩⟩
        · cases hdecided
      · cases hnext
        cases hdecided
    · cases hnext
      cases hdecided

/-- How a run ended is rolled up once no sibling has the window open. -/
theorem decided_nextOf (hnext : (s.nextOf instanceId c runId live point).2 = some point')
    (hdecided : point'.decided = some status) : ∃ caller,
    (point = .window caller ∨ point = .liveInstance caller) ∧
      (s.afterWindow c runId caller).2 = some point' := by
  cases point with
  | window caller =>
    refine ⟨caller, .inl rfl, ?_⟩
    simp only [nextOf] at hnext
    split at hnext
    · split at hnext
      · exact hnext
      · cases hnext
        cases hdecided
    · exact hnext
  | liveInstance caller =>
    refine ⟨caller, .inr rfl, ?_⟩
    simp only [nextOf] at hnext
    split at hnext
    · cases hnext
    · exact hnext
  | syncRunJobsFromRows ref ready =>
    simp only [nextOf] at hnext
    split at hnext
    · split at hnext
      · cases hnext
        cases hdecided
      · rw [readyToFinalize] at hnext
        split at hnext <;> cases hnext
        cases hdecided
    · cases hnext
  | clearWindow released =>
    simp only [nextOf] at hnext
    split at hnext
    · split at hnext <;> cases hnext
      cases hdecided
    · cases hnext
  | failWrite path => cases path <;> cases hnext <;> cases hdecided
  | failClearWindow path | failJobs path => cases path <;> cases hnext <;> cases hdecided
  | failForward path => cases path <;> simp only [nextOf] at hnext <;> split at hnext <;> cases hnext
  | openWindow =>
    simp only [nextOf] at hnext
    split at hnext <;> cases hnext
  | memoryWrite | fallbackJobs | fallbackRun | fallbackWrite | neverStartedWrite =>
    simp only [nextOf] at hnext
    split at hnext <;> cases hnext
    cases hdecided
  | heldWrite =>
    simp only [nextOf] at hnext
    split at hnext <;> cases hnext <;> cases hdecided
  | finalizeWrite | fallbackStamp | staleReason | forward | neverStartedForward | heldForward
  | heldForget =>
    cases hnext <;> cases hdecided

/-- A call that completes a run writes what was decided, or what it records, to a row that is not
over. -/
theorem statusOf_nextOf (hcompletes : point.completes)
    (hchanged : (s.nextOf instanceId c runId live point).1.db.statusOf runId ≠ s.db.statusOf runId)
    (hstatus : (s.nextOf instanceId c runId live point).1.db.statusOf runId = some status) :
    (point.decided = some status ∨ point.recorded = some status) ∧
      ∀ stored ∈ s.db.statusOf runId, stored ∉ TERMINAL_RUN_STATES := by
  -- A write that changes the status finds the run not over.
  have hwritten : ∀ (u : Update ExecutionRun.runId) {status'}, u.KeepsFinished →
    (∀ row, (u.set row).status = status') →
      (s.nextOf instanceId c runId live point).1.db = s.db.updateRuns u →
      some status' = some status ∧ ∀ stored ∈ s.db.statusOf runId, stored ∉ TERMINAL_RUN_STATES := by
    intro u status' hkeeps hset hdb
    rw [hdb] at hchanged hstatus
    exact (statusOf_updateRuns_of_ne hkeeps hset hchanged).imp_left (·.trans hstatus)
  cases point with
  | finalizeWrite status' failureReason failureClass =>
    refine (hwritten (finalizeUpdate runId status' failureReason failureClass)
      finalizeUpdate_keepsFinished (fun _ => rfl) ?_).imp_left .inl
    simp only [nextOf]
    split <;> rfl
  | memoryWrite status' failureReason failureClass =>
    refine (hwritten (staleUpdate runId status' failureClass) staleUpdate_keepsFinished (fun _ => rfl)
      ?_).imp_left .inl
    simp only [nextOf]
    split <;> rfl
  | fallbackWrite status' failureReason failureClass =>
    refine (hwritten (staleUpdate runId status' failureClass) staleUpdate_keepsFinished (fun _ => rfl)
      ?_).imp_left .inr
    simp only [nextOf]
    split <;> rfl
  | neverStartedWrite failureReason =>
    have hdb : (s.nextOf instanceId c runId live (.neverStartedWrite failureReason)).1.db =
        s.db.upsertRun (neverStartedRow runId failureReason)
          (neverStartedUpdate runId failureReason) := by
      simp only [nextOf]
      split <;> rfl
    rw [hdb] at hchanged hstatus
    rw [upsertRun.eq_def] at hchanged hstatus
    split at hchanged
    · next row hrow =>
      simp only [hrow] at hstatus
      obtain ⟨hset, hlive⟩ := statusOf_updateRuns_of_ne neverStartedUpdate_keepsFinished
        (fun _ => rfl) hchanged
      exact ⟨.inr (hset.trans hstatus), hlive⟩
    · next hnone =>
      simp only [hnone, statusOf] at hstatus
      have hself := Table.lookup_insertNew_self (t := s.db.executionRuns)
        (r := neverStartedRow runId failureReason) hnone
      rw [show (neverStartedRow runId failureReason).runId = runId from rfl] at hself hnone
      rw [hself] at hstatus
      refine ⟨.inr hstatus, fun stored hstored => ?_⟩
      rw [statusOf, hnone] at hstored
      cases hstored
  | _ => cases hcompletes

end TrackerState

end Memory

/-! ## Runs -/

open AuthoredState

section Runs

open TrackerState

variable {κ : Type} [DecidableEq κ] {instanceId : κ → Option String}

namespace AuthoredState

variable {s t : AuthoredState κ} {a : TrackerAction κ} {c : κ} {runId : String}
  {status : ExecutionRunStatus}

/-- What was decided is what the memory says. -/
structure VerdictKept (s : AuthoredState κ) : Prop where
  inRange : s.tracker.InRange
  ended : ∀ c runId status run, s.Decided c runId status → s.tracker.run c runId = some run →
    run.EndedAs status

/-- What is decided after a step was decided, or a call that goes on has just rolled it up, or has
recorded it. -/
theorem decided_step {tracker : TrackerState κ} (hstep : s.tracker.step instanceId a = some tracker)
    (hdecided : Decided ⟨tracker, s.nextAuthor tracker a⟩ c runId status) : s.Decided c runId status ∨
    ∃ k live point, a = .next k live ∧ s.tracker.calls[k]? = some ⟨c, runId, point⟩ ∧
      ((∃ point', (s.tracker.nextOf instanceId c runId live point).2 = some point' ∧
        point'.decided = some status) ∨
        point.recorded = some status ∧ ∀ stored ∈ s.tracker.db.statusOf runId,
        stored ∉ TERMINAL_RUN_STATES) := by
  rcases hdecided with ⟨hauthor, hstatus, hterminal⟩ | ⟨point, hcall, hpoint⟩
  · simp only [nextAuthor] at hauthor
    split at hauthor
    · next hsame => exact .inl (.inl ⟨hauthor, hsame ▸ hstatus, hterminal⟩)
    · next hchanged =>
      split at hauthor
      · next k live =>
        obtain ⟨⟨c', runId', point⟩, hget, hcoordinator⟩ := bind_eq_some_iff.1 hauthor
        rw [ite_none_right_eq_some] at hcoordinator
        obtain ⟨⟨rfl, hcompletes⟩, hc⟩ := hcoordinator
        cases hc
        simp only [TrackerState.step, hget, some.injEq] at hstep
        subst hstep
        obtain ⟨hwritten, hlive⟩ := statusOf_nextOf hcompletes hchanged hstatus
        rcases hwritten with hwritten | hwritten
        · exact .inl (.inr ⟨point, mem_of_getElem? hget, hwritten⟩)
        · exact .inr ⟨k, live, point, rfl, hget, .inr ⟨hwritten, hlive⟩⟩
      · cases hauthor
  · rcases mem_calls_step hpoint hstep hcall with hcall | ⟨k, live, point₀, rfl, hget, hnext⟩
    · exact .inl (.inr ⟨point, hcall, hpoint⟩)
    · exact .inr ⟨k, live, point₀, rfl, hget, .inl ⟨point, hnext, hpoint⟩⟩

/-- A call that goes on has rolled up, or records, what the memory says. -/
theorem endedAs_of_next {k : ℕ} {live : Bool} {point : TrackerPoint} {run : RunState}
    (hok : s.KeepsVerdict instanceId (.next k live))
    (hget : s.tracker.calls[k]? = some ⟨c, runId, point⟩)
    (hnew : (∃ point', (s.tracker.nextOf instanceId c runId live point).2 = some point' ∧
        point'.decided = some status) ∨
      point.recorded = some status ∧ ∀ stored ∈ s.tracker.db.statusOf runId,
      stored ∉ TERMINAL_RUN_STATES)
    (hrun : s.tracker.run c runId = some run) :
    run.EndedAs status ∧ (next k live).edit s.tracker = fun _ run => run := by
  rw [edit, hget]
  rcases hnew with ⟨point', hnext, hdecided⟩ | ⟨hrecorded, hlive⟩
  · obtain ⟨caller, hpoint, hafter⟩ := decided_nextOf hnext hdecided
    obtain ⟨ref, run₀, hobject, rfl, hcaller⟩ := decided_afterWindow hafter hdecided
    -- The run that was rolled up is the one in memory.
    have hsame : s.tracker.runs c runId = some ref ∧ run.isComplete := by
      rcases hcaller with rfl | ⟨href, hcomplete⟩
      · refine hok.finalizes k live _ ref run rfl hget hpoint ?_ hrun
        rw [hnext, bind_some, hdecided]
        rfl
      · rw [TrackerState.run, href, bind_some, hobject] at hrun
        cases hrun
        exact ⟨href, hcomplete⟩
    rw [TrackerState.run, hsame.1, bind_some, hobject] at hrun
    cases hrun
    refine ⟨RunState.endedAs_computeRunStatus hsame.2, ?_⟩
    rcases hpoint with rfl | rfl <;> rfl
  · have hnone := hok.records k live _ rfl hget (by rw [hrecorded]; rfl) hlive
    cases hnone.symm.trans hrun

theorem VerdictKept.step (hs : s.VerdictKept) (hok : s.KeepsVerdict instanceId a)
    (hstep : s.step instanceId a = some t) : t.VerdictKept := by
  obtain ⟨tracker, hstep', rfl⟩ := map_eq_some_iff.1 hstep
  refine ⟨hs.inRange.step hstep', fun c runId status run' hdecided hrun' => ?_⟩
  rcases run_step hs.inRange hstep' hrun' with hadds | ⟨ref, run, href, hobject, hkeeps⟩
  · rcases decided_step hstep' hdecided with hbefore | ⟨k, live, point, rfl, -⟩
    · exact absurd hadds (hok.adds c runId status hbefore)
    · cases hadds
  · have hrun : s.tracker.run c runId = some run := by
      rw [TrackerState.run, href]
      exact hobject
    rcases decided_step hstep' hdecided with hbefore | ⟨k, live, point, rfl, hget, hnew⟩
    · exact hkeeps status ((hok.edits c runId status ref run hbefore href hobject).endedAs
        (hs.ended c runId status run hbefore hrun))
    · obtain ⟨hended, hedit⟩ := endedAs_of_next hok hget hnew hrun
      rw [hedit] at hkeeps
      exact hkeeps status hended

theorem verdictKept_of_init (h : s ∈ (replaySystem instanceId).init) : s.VerdictKept := by
  obtain ⟨⟨hcalls, -⟩, hauthor, hruns⟩ := h
  refine ⟨fun c runId ref href => ?_, fun c runId status run hdecided _ => ?_⟩
  · rw [hruns] at href
    cases href
  · rcases hdecided with ⟨hc, -⟩ | ⟨point, hcall, -⟩
    · rw [hauthor] at hc
      cases hc
    · rw [hcalls] at hcall
      cases hcall

end AuthoredState

/-- What a coordinator replays of a run that it completed is the status of its row. -/
theorem status_replay_eq {s : AuthoredState κ} {c : κ} {runId : String} {status : ExecutionRunStatus}
    {replayed : ReplayedRun}
    (hreach : (replaySystem instanceId).Reachable (fun s a => s.KeepsVerdict instanceId a) s)
    (hauthor : s.author runId = some c) (hstatus : s.tracker.db.statusOf runId = some status)
    (hterminal : status ∈ TERMINAL_RUN_STATES)
    (hreplay : s.tracker.getReplayData c runId = some replayed) : replayed.status = status := by
  have hkept : s.VerdictKept := hreach.invariant (fun _ => verdictKept_of_init)
    fun _ _ _ hs hok hstep => hs.step hok hstep
  obtain ⟨run, hrun, rfl⟩ := map_eq_some_iff.1 hreplay
  have hended := hkept.ended c runId status run (.inl ⟨hauthor, hstatus, hterminal⟩) hrun
  exact (RunState.status_replay_eq_iff hterminal).2 hended

namespace AuthoredState

variable {s : AuthoredState κ} {a : TrackerAction κ}

/-- A step taken before anything is decided, which is not one of a call. -/
theorem keepsVerdict_of_undecided (hauthor : s.author = fun _ => none)
    (hcalls : ∀ call ∈ s.tracker.calls, call.point.decided = none) (ha : a.isNext = false) :
    s.KeepsVerdict instanceId a := by
  have hundecided : ∀ c runId status, ¬s.Decided c runId status := by
    rintro c runId status (⟨hc, -⟩ | ⟨point, hcall, hdecided⟩)
    · rw [hauthor] at hc
      cases hc
    · rw [hcalls _ hcall] at hdecided
      cases hdecided
  exact {
    edits := fun c runId status _ _ hdecided => absurd hdecided (hundecided c runId status)
    adds := fun c runId status hdecided => absurd hdecided (hundecided c runId status)
    records := fun _ _ _ heq => by
      rw [heq] at ha
      cases ha
    finalizes := fun _ _ _ _ _ heq => by
      rw [heq] at ha
      cases ha }

/-- A run in which nothing is decided goes on. -/
theorem path_of_undecided {s₀ t : AuthoredState κ}
    (h : (replaySystem instanceId).Path (fun s a => s.KeepsVerdict instanceId a) s₀ s ∧
      s.author = fun _ => none)
    (hcalls : ∀ call ∈ s.tracker.calls, call.point.decided = none) (ha : a.isNext = false)
    (hstep : (replaySystem instanceId).step s a = some t) :
    (replaySystem instanceId).Path (fun s a => s.KeepsVerdict instanceId a) s₀ t ∧
    t.author = fun _ => none := by
  refine ⟨h.1.tail (keepsVerdict_of_undecided h.2 hcalls ha) hstep, ?_⟩
  obtain ⟨tracker, -, rfl⟩ := map_eq_some_iff.1 hstep
  funext runId
  cases a with
  | next => cases ha
  | _ => exact ite_eq_right_iff.2 fun _ => congrFun h.2 runId

/-- A call that completes a run from memory for the stale detector. -/
theorem keepsVerdict_next {k : ℕ} {live : Bool} {call : TrackerCall κ}
    (hget : s.tracker.calls[k]? = some call)
    (hpoint : call.point = .window .completeRunIfAllJobsTerminal ∨
      ∃ status reason failureClass, call.point = .memoryWrite status reason failureClass) :
    s.KeepsVerdict instanceId (.next k live) := by
  obtain ⟨c, runId, point⟩ := call
  have hedit : (next k live).edit s.tracker = fun _ run => run := by
    rw [edit, hget]
    rcases hpoint with rfl | ⟨_, _, _, rfl⟩ <;> rfl
  have hadds : (next k live).adds s.tracker = none := rfl
  refine ⟨fun _ _ _ _ _ _ _ _ => hedit ▸ ⟨rfl, rfl, rfl⟩, fun _ _ _ _ h =>
    some_ne_none _ (h.symm.trans hadds), ?_, ?_⟩
  · rintro k' live' call' ⟨⟩ hget' hrecorded
    cases hget.symm.trans hget'
    rcases hpoint with rfl | ⟨_, _, _, rfl⟩ <;> cases hrecorded
  · rintro k' live' call' ref run ⟨⟩ hget' hwindow
    cases hget.symm.trans hget'
    rcases hpoint with rfl | ⟨_, _, _, rfl⟩ <;> rcases hwindow with hwindow | hwindow <;> cases hwindow

end AuthoredState

/-- A run whose row says that it goes on. -/
def replayStart : AuthoredState Unit where
  tracker := { db := {
    executionRuns := .singleton _ { runId := "run-1", status := .running }
    executionJobs := .empty _ } }

/-- A run that succeeds is replayed so. -/
theorem status_replay_eq_success : ∃ s replayed,
    (replaySystem fun _ : Unit => none).Reachable (fun s a => s.KeepsVerdict (fun _ => none) a) s ∧
    s.author "run-1" = some () ∧ s.tracker.db.statusOf "run-1" = some .success ∧
    s.tracker.getReplayData () "run-1" = some replayed ∧ replayed.status = .success := by
  have h₀ : (replaySystem fun _ : Unit => none).Path (fun s a => s.KeepsVerdict (fun _ => none) a)
    replayStart
      replayStart ∧ replayStart.author = fun _ => none := ⟨.refl, rfl⟩
  have h₁ := path_of_undecided (a := .recoverRunFromDb () "run-1" none false) h₀ (by decide) rfl rfl
  have h₂ := path_of_undecided
    (a := .setJob () "run-1" { jobId := "job-1", name := "test", status := .success }) h₁
      (by decide) rfl rfl
  have h₃ := path_of_undecided (a := .completeRunIfAllJobsTerminal () "run-1") h₂ (by decide) rfl rfl
  have h₄ := h₃.1.tail (a := .next 0 false) (keepsVerdict_next rfl (.inl rfl)) rfl
  have h₅ := h₄.tail (a := .next 0 false) (keepsVerdict_next rfl (.inr ⟨_, _, _, rfl⟩)) rfl
  obtain ⟨s, hpath, hauthor, hstatus, replayed, hreplay⟩ : ∃ s,
      (replaySystem fun _ : Unit => none).Path (fun s a => s.KeepsVerdict (fun _ => none) a)
        replayStart s ∧
      s.author "run-1" = some () ∧ s.tracker.db.statusOf "run-1" = some .success ∧
      ∃ replayed, s.tracker.getReplayData () "run-1" = some replayed :=
        ⟨_, h₅, by decide, by decide, _, rfl⟩
  have hreach : (replaySystem fun _ : Unit => none).Reachable
    (fun s a => s.KeepsVerdict (fun _ => none) a) s :=
    ⟨replayStart, ⟨⟨rfl, rfl⟩, rfl, rfl⟩, hpath⟩
  exact ⟨s, replayed, hreach, hauthor, hstatus, hreplay,
    status_replay_eq hreach hauthor hstatus (by decide) hreplay⟩

/-- A run whose one job the cancel path writes to its row alone is replayed as pending. -/
theorem exists_replay_pending : ∃ s replayed,
    (replaySystem fun _ : Unit => none).Reachable System.anyStep s ∧
    s.author "run-1" = some () ∧ s.tracker.db.statusOf "run-1" = some .cancelled ∧
    s.tracker.getReplayData () "run-1" = some replayed ∧ replayed.status = .pending := by
  obtain ⟨s, hpath, hs⟩ := (replaySystem fun _ : Unit => none).exists_path replayStart
      (fun s => s.author "run-1" = some () ∧ s.tracker.db.statusOf "run-1" = some .cancelled ∧
        (s.tracker.getReplayData () "run-1").map (·.status) = some .pending) System.anyStep_of_true [
      .onExecutionStarted () "run-1" none [{ jobId := "job-1", name := "test" }],
      .persistJobStatus { runId := "run-1", jobId := "job-1", jobName := "test", status := .cancelled },
      .completeRunIfAllJobsTerminal () "run-1", .next 0 false, .next 0 false, .next 0 false,
        .next 0 false]
      (by decide)
  obtain ⟨hauthor, hstatus, hreplay⟩ := hs
  obtain ⟨replayed, hreplayed, hpending⟩ := map_eq_some_iff.1 hreplay
  exact ⟨s, replayed, ⟨replayStart, ⟨⟨rfl, rfl⟩, rfl, rfl⟩, hpath⟩, hauthor, hstatus,
    hreplayed, hpending⟩

end Runs

end Kici
