import Kici.Foundation.System
import Kici.Runs.ExecutionRuns

/-!
# The execution tracker

Any number of coordinators track runs, each in its own memory, and write the rows of
`execution_runs` and `execution_jobs` that they share. A call runs in one go up to its next
statement, which the database executes at some later time; what follows the statement comes
later still (`TrackerPoint`). Between the two anything may happen.

* `readyToFinalize` and `finalizeRunCompletion` finish a run once all its jobs are over. They
  are reached at the end of `onJobStatus`, of `addJobsToRun` and of `releasePendingJobsHold`;
* `completeRunIfAllJobsTerminal` does so for the stale detector, from memory or from the rows;
* `onBuildFailed`, `recordNeverStartedRun`, `recordRunHeld` and `failRun` write a run
  whatever its jobs, and so do the calls about held runs.

What is forwarded is kept, with the status of the row after the write it comes from, and with
the tokens the coordinator held (`TrackerEvent`).

The rest of `onJobStatus` and `addJobsToRun` (the row of a job, the job in memory, a run that
is read back into memory) is split into its statements, which may be executed in any order;
the order in which a coordinator runs the calls of one run is thus left open.
-/

namespace Kici

open ExecutionRun

/-- What writes the status of a run. -/
inductive Finisher
  | finalizeRunCompletion
  | completeRunFromMemoryState
  | completeRunFromDbFallback
  | onBuildFailed
  | recordNeverStartedRun
  | recordRunHeld
  | failRun
  | completeReleasedGlobalEvalRound
  | cancelHeldRun
  | cancelJoblessRun
  deriving DecidableEq

/-- The status of a row before and after a write. -/
structure RunWrite where
  found : Option ExecutionRunStatus
  stored : Option ExecutionRunStatus

/-- What a write of the rows did to the row of a run. -/
def RunWrite.of (db db' : RunsDb) (runId : String) : RunWrite := ⟨db.statusOf runId, db'.statusOf runId⟩

/-- What a coordinator did about the end of a run, with the tokens it held for the run. -/
inductive TrackerEvent
  /-- A write changed the row of the run. -/
  | wrote (finisher : Finisher) (runId : String) (status : ExecutionRunStatus) (tokens : ℕ)
  /-- The callbacks for the status were called. -/
  | forwarded (finisher : Finisher) (runId : String) (status : ExecutionRunStatus)
      (failureReason : Option JsString) (failureClass : Option RunFailureClass)
      (stored : Option ExecutionRunStatus) (tokens : ℕ)
  deriving DecidableEq

/-- What `registrationWindowHeldByLiveSibling` is asked for. -/
inductive WindowCaller
  | readyToFinalize (run : ℕ)
  | completeRunIfAllJobsTerminal

/-- The calls that fail a run with its jobs. -/
inductive FailPath
  | onBuildFailed
  /-- With the run that was in memory when the call started. -/
  | failRun (run : Option ℕ)

/-- Where a call is: before a statement, or before what follows one. -/
inductive TrackerPoint
  | openWindow
  /-- The window is to be cleared; a token of the run was dropped, if one is given. -/
  | clearWindow (released : Option ℕ)
  /-- The rows of the jobs are to be folded into memory, for `readyToFinalize` or before it. -/
  | syncRunJobsFromRows (run : ℕ) (ready : Bool)
  | window (caller : WindowCaller)
  /-- A sibling has the window open. -/
  | liveInstance (caller : WindowCaller)
  | finalizeWrite (status : ExecutionRunStatus) (failureReason : Option JsString)
      (failureClass : Option RunFailureClass)
  | memoryWrite (status : ExecutionRunStatus) (failureReason : Option JsString)
      (failureClass : Option RunFailureClass)
  | fallbackJobs
  | fallbackRun (status : ExecutionRunStatus) (failureClass : Option RunFailureClass)
  | fallbackWrite (status : ExecutionRunStatus) (failureReason : Option JsString)
      (failureClass : Option RunFailureClass)
  | fallbackStamp (status : ExecutionRunStatus) (failureReason : Option JsString)
      (failureClass : Option RunFailureClass) (write : RunWrite)
  | staleReason (finisher : Finisher) (status : ExecutionRunStatus) (failureReason : Option JsString)
      (failureClass : Option RunFailureClass) (write : RunWrite)
  | forward (finisher : Finisher) (status : ExecutionRunStatus) (failureReason : Option JsString)
      (failureClass : Option RunFailureClass) (write : RunWrite)
  | failWrite (path : FailPath) (failureReason : JsString)
  | failClearWindow (path : FailPath) (failureReason : JsString) (write : RunWrite)
  | failJobs (path : FailPath) (failureReason : JsString) (write : RunWrite)
  | failForward (path : FailPath) (failureReason : JsString) (write : RunWrite)
  | neverStartedWrite (failureReason : JsString)
  | neverStartedForward (failureReason : JsString) (write : RunWrite)
  | heldWrite (isGlobalEvalRound : Bool)
  | heldForward (write : RunWrite)
  | heldForget

/-- A call of a coordinator about a run. -/
structure TrackerCall (κ : Type) where
  coordinator : κ
  runId : String
  point : TrackerPoint

structure TrackerState (κ : Type) where
  db : RunsDb
  /-- The runs that are, or were, in memory. -/
  objects : List RunState := []
  /-- The place of a run among them, as a coordinator has it. -/
  runs : κ → String → Option ℕ := fun _ _ => none
  calls : List (TrackerCall κ) := []
  events : List TrackerEvent := []

inductive TrackerAction (κ : Type)
  /-- A run comes into memory, or its jobs join those of the run that is there. -/
  | onExecutionStarted (c : κ) (runId : String) (checkMode : Option CheckMode) (jobs : List TrackedJob)
  /-- A run is read back into memory, with whether drift was detected in it. -/
  | recoverRunFromDb (c : κ) (runId : String) (checkMode : Option CheckMode) (driftDetected : Bool)
  /-- A job gets into memory, or its status there is set. -/
  | setJob (c : κ) (runId : String) (job : TrackedJob)
  | deleteJob (c : κ) (runId : String) (jobId : String)
  | detectDrift (c : κ) (runId : String)
  /-- A run in memory starts, or starts to be cancelled. -/
  | setRunStatus (c : κ) (runId : String)
    (status : {status : ExecutionRunStatus // status ∈ LIVE_RUN_STATES})
  | releaseRunFinishedElsewhere (c : κ) (runId : String)
  /-- A finished run leaves memory. -/
  | prune (c : κ) (runId : String)
  | holdRunForPendingJobs (c : κ) (runId : String)
  | releasePendingJobsHold (c : κ) (runId : String)
  /-- The completion check at the end of `onJobStatus` and `addJobsToRun`. -/
  | checkCompletion (c : κ) (runId : String)
  | completeRunIfAllJobsTerminal (c : κ) (runId : String)
  | onBuildFailed (c : κ) (runId : String) (message : Option JsString)
  | failRun (c : κ) (runId : String) (reason : JsString)
  | recordNeverStartedRun (c : κ) (runId : String) (failureReason : JsString)
  | recordRunHeld (c : κ) (runId : String) (isGlobalEvalRound : Bool)
  | claimHeldGlobalEvalRound (runId : String)
  /-- A released round ends, with the reason if it failed. -/
  | completeReleasedGlobalEvalRound (c : κ) (runId : String) (reason : Option JsString)
  | resumeHeldRun (runId : String)
  | cancelHeldRun (c : κ) (runId : String) (reason : JsString)
  | cancelJoblessRun (c : κ) (runId : String) (reason : JsString)
  /-- The row of a job gets a status. -/
  | persistJobStatus (job : RunJob)
  | deleteJobRow (runId : String) (jobId : String)
  /-- Other code gives a run a status, or a row. -/
  | writeRun (runId : String) (status : ExecutionRunStatus)
  /-- A call goes on; `live` is whether the sibling that has the window open is alive. -/
  | next (k : ℕ) (live : Bool)

variable {caller : WindowCaller}

namespace TrackerState

variable {κ : Type} (s : TrackerState κ)

/-! ## Memory -/

/-- The run in the memory of a coordinator. -/
def run (c : κ) (runId : String) : Option RunState := (s.runs c runId).bind fun ref => s.objects[ref]?

/-- The tokens a coordinator holds for a run. -/
def tokens (c : κ) (runId : String) : ℕ := ((s.run c runId).map (·.pendingJobRegistrations)).getD 0

def isRunComplete (c : κ) (runId : String) : Bool := (s.run c runId).any (·.isComplete)

/-- Change a run in memory. -/
def modify (ref : ℕ) (f : RunState → RunState) : TrackerState κ :=
  { s with objects := s.objects.modify ref f }

/-- Change the run in the memory of a coordinator, if it is there. -/
def modifyRun (c : κ) (runId : String) (f : RunState → RunState) : TrackerState κ :=
  match s.runs c runId with
  | some ref => s.modify ref f
  | none => s

/-- Set the place of a run in the memory of a coordinator. -/
def setRef [DecidableEq κ] (c : κ) (runId : String) (ref : Option ℕ) : TrackerState κ :=
  { s with runs := fun c' runId' => if c' = c ∧ runId' = runId then ref else s.runs c' runId' }

/-- Put a new run into the memory of a coordinator. -/
def addRun [DecidableEq κ] (c : κ) (runId : String) (run : RunState) : TrackerState κ :=
  setRef { s with objects := s.objects ++ [run] } c runId (some s.objects.length)

/-- Start a call. -/
def call (c : κ) (runId : String) (point : TrackerPoint) : TrackerState κ :=
  { s with calls := s.calls ++ [⟨c, runId, point⟩] }

/-! ## Writes -/

/-- The state with other rows. -/
def withDb (db : RunsDb) : TrackerState κ := { s with db }

/-- Keep that a write changed a row. -/
def logWrite (finisher : Finisher) (c : κ) (runId : String) (status : ExecutionRunStatus) :
    TrackerState κ :=
  { s with events := s.events ++ [.wrote finisher runId status (s.tokens c runId)] }

/-- Call the callbacks for a status. -/
def forward (finisher : Finisher) (c : κ) (runId : String) (status : ExecutionRunStatus)
    (failureReason : Option JsString) (failureClass : Option RunFailureClass) (write : RunWrite) :
    TrackerState κ :=
  { s with events := s.events ++
      [.forwarded finisher runId status failureReason failureClass write.stored (s.tokens c runId)] }

/-- A write that is forwarded in one go, if it changed the row. -/
def writeAndForward (finisher : Finisher) (c : κ) (runId : String) (u : Update ExecutionRun.runId)
    (status : ExecutionRunStatus) (failureReason : Option JsString)
    (failureClass : Option RunFailureClass) : TrackerState κ :=
  let t := s.withDb (s.db.updateRuns u)
  if s.db.applies u then
    (t.logWrite finisher c runId status).forward finisher c runId status failureReason failureClass
      (.of s.db t.db runId)
  else t

/-! ## Calls -/

/-- Fold the rows of the jobs of a run into the run in memory: a job that is not known is
added, and one that is not over is over if its row is. -/
def foldRows (rows : List RunJob) (run : RunState) : RunState :=
  rows.foldl (fun run row =>
    match run.job row.jobId with
    | none => run.setJob ⟨row.jobId, row.jobName, row.workflowName, row.status⟩
    | some known =>
      if known.status ∉ TERMINAL_JOB_STATES ∧ row.status ∈ TERMINAL_JOB_STATES then
        run.setJob { known with status := row.status }
      else run) run

/-- `readyToFinalize` up to its first statement. -/
def readyToFinalize (c : κ) (runId : String) (ref : ℕ) : TrackerState κ × Option TrackerPoint :=
  if (s.objects[ref]?).any (·.completedAt) ∨ ¬s.isRunComplete c runId then (s, none)
  else (s, some (.syncRunJobsFromRows ref true))

/-- `finalizeRunCompletion` up to its write. -/
def finalizeRunCompletion (ref : ℕ) : TrackerState κ × Option TrackerPoint :=
  match s.objects[ref]? with
  | none => (s, none)
  | some run =>
    let overallStatus := run.computeRunStatus
    let failureReason := if overallStatus = .failed then run.buildRunDescription overallStatus else none
    let failureClass := computeFailureClass overallStatus (run.jobs.map (·.status))
    (s.modify ref fun run => { run with
        completedAt := true
        failureReason := match failureReason with
          | some reason => some reason
          | none => run.failureReason },
      some (.finalizeWrite overallStatus failureReason failureClass))

/-- `completeRunFromMemoryState` up to its write. -/
def completeRunFromMemoryState (ref : ℕ) (memRun : RunState) : TrackerState κ × Option TrackerPoint :=
  let overallStatus := memRun.computeRunStatus
  let staleFailureReason : Option JsString :=
    if overallStatus = .failed then
      some "Run completed via stale detection (no heartbeat received)"
    else none
  let failureClass := computeFailureClass overallStatus (memRun.jobs.map (·.status))
  (s.modify ref fun run => { run with completedAt := true },
    some (.memoryWrite overallStatus staleFailureReason failureClass))

/-- `completeRunIfAllJobsTerminal` once no sibling has the window open. -/
def completeRun (c : κ) (runId : String) : TrackerState κ × Option TrackerPoint :=
  match s.runs c runId with
  | some ref =>
    match s.objects[ref]? with
    | some memRun =>
      if memRun.isComplete then s.completeRunFromMemoryState ref memRun else (s, some .fallbackJobs)
    | none => (s, some .fallbackJobs)
  | none => (s, some .fallbackJobs)

/-- What the caller does once no sibling has the window open. -/
def afterWindow (c : κ) (runId : String) : WindowCaller → TrackerState κ × Option TrackerPoint
  | .readyToFinalize ref => s.finalizeRunCompletion ref
  | .completeRunIfAllJobsTerminal => s.completeRun c runId

/-! ## What is left alone -/

section Frame

variable {s} {c : κ} {runId : String} {f : RunState → RunState} {finisher : Finisher}
  {status : ExecutionRunStatus} {failureReason : Option JsString}
  {failureClass : Option RunFailureClass} {write : RunWrite} {db : RunsDb} {ref : Option ℕ}

@[simp] theorem modifyRun_db : (s.modifyRun c runId f).db = s.db := by
  rw [modifyRun.eq_def]
  split <;> rfl

@[simp] theorem modifyRun_events : (s.modifyRun c runId f).events = s.events := by
  rw [modifyRun.eq_def]
  split <;> rfl

@[simp] theorem modifyRun_calls : (s.modifyRun c runId f).calls = s.calls := by
  rw [modifyRun.eq_def]
  split <;> rfl

theorem mem_events_logWrite {e : TrackerEvent} : e ∈ (s.logWrite finisher c runId status).events ↔
    e ∈ s.events ∨ e = .wrote finisher runId status (s.tokens c runId) := by
  simp [logWrite]

theorem mem_events_forward {e : TrackerEvent} :
    e ∈ (s.forward finisher c runId status failureReason failureClass write).events ↔ e ∈ s.events ∨
      e = .forwarded finisher runId status failureReason failureClass write.stored
      (s.tokens c runId) := by
  simp [forward]

theorem writeAndForward_db {u : Update ExecutionRun.runId} :
    (s.writeAndForward finisher c runId u status failureReason failureClass).db = s.db.updateRuns u := by
  rw [writeAndForward]
  split <;> rfl

@[simp] theorem readyToFinalize_fst {ref : ℕ} : (s.readyToFinalize c runId ref).1 = s := by
  rw [readyToFinalize]
  split <;> rfl

/-- What a caller does next changes at most a run in memory. -/
theorem afterWindow_fst (c : κ) (runId : String) (caller : WindowCaller) :
    (s.afterWindow c runId caller).1 = s ∨ ∃ ref f,
    (s.afterWindow c runId caller).1 = s.modify ref f := by
  cases caller with
  | readyToFinalize ref =>
    simp only [afterWindow, finalizeRunCompletion]
    split
    · exact .inl rfl
    · exact .inr ⟨_, _, rfl⟩
  | completeRunIfAllJobsTerminal =>
    simp only [afterWindow, completeRun]
    split
    · split
      · split
        · exact .inr ⟨_, _, rfl⟩
        · exact .inl rfl
      · exact .inl rfl
    · exact .inl rfl

@[simp] theorem afterWindow_db : (s.afterWindow c runId caller).1.db = s.db := by
  rcases s.afterWindow_fst c runId caller with h | ⟨_, _, h⟩
  · rw [h]
  · rw [h]
    rfl

@[simp] theorem afterWindow_events :
    (s.afterWindow c runId caller).1.events = s.events := by
  rcases s.afterWindow_fst c runId caller with h | ⟨_, _, h⟩
  · rw [h]
  · rw [h]
    rfl

end Frame

/-! ## Steps -/

variable [DecidableEq κ] (instanceId : κ → Option String)

/-- Clear the window of a run, if it is the coordinator's own. -/
def clearWindow (c : κ) (runId : String) : TrackerState κ :=
  match instanceId c with
  | some id => s.withDb (s.db.updateRuns (clearWindowUpdate runId id))
  | none => s

omit [DecidableEq κ] in
variable {s instanceId} in
@[simp] theorem clearWindow_events {c : κ} {runId : String} :
    (s.clearWindow instanceId c runId).events = s.events := by
  rw [clearWindow.eq_def]
  split <;> rfl

/-- How a call goes on, and where it is then, unless it is over. -/
def nextOf (c : κ) (runId : String) (live : Bool) : TrackerPoint → TrackerState κ × Option TrackerPoint
  | .openWindow =>
    match instanceId c with
    | some id => (s.withDb (s.db.updateRuns (openWindowUpdate runId id)), none)
    | none => (s, none)
  | .clearWindow released =>
    let t := s.clearWindow instanceId c runId
    match released with
    | some ref =>
      if (t.objects[ref]?).any (·.completedAt) then (t, none)
      else (t, some (.syncRunJobsFromRows ref false))
    | none => (t, none)
  | .syncRunJobsFromRows ref ready =>
    let t := s.modify ref (foldRows (s.db.jobsOf runId))
    if t.isRunComplete c runId then
      if ready then (t, some (.window (.readyToFinalize ref))) else t.readyToFinalize c runId ref
    else (t, none)
  | .window caller =>
    match (s.db.executionRuns.lookup runId).bind (·.registrationWindowInstanceId) with
    | some holder =>
      if holder = "" ∨ some holder = instanceId c then s.afterWindow c runId caller
      else (s, some (.liveInstance caller))
    | none => s.afterWindow c runId caller
  | .liveInstance caller => if live then (s, none) else s.afterWindow c runId caller
  | .finalizeWrite status failureReason failureClass =>
    let u := finalizeUpdate runId status failureReason failureClass
    let t := s.withDb (s.db.updateRuns u)
    -- The write may be rejected; the status is forwarded all the same.
    (if s.db.applies u then t.logWrite .finalizeRunCompletion c runId status else t,
      some (.forward .finalizeRunCompletion status failureReason failureClass (.of s.db t.db runId)))
  | .memoryWrite status failureReason failureClass =>
    let u := staleUpdate runId status failureClass
    let t := s.withDb (s.db.updateRuns u)
    if s.db.applies u then
      (t.logWrite .completeRunFromMemoryState c runId status,
        some (.staleReason .completeRunFromMemoryState status failureReason failureClass
          (.of s.db t.db runId)))
    else (t, none)
  | .fallbackJobs =>
    let jobs := s.db.jobsOf runId
    if jobs ≠ [] ∧ jobs.all (fun row => row.status ∈ TERMINAL_JOB_STATES) then
      let overallStatus := rollUp (jobs.map (·.status))
      (s, some (.fallbackRun overallStatus (computeFailureClass overallStatus (jobs.map (·.status)))))
    else (s, none)
  | .fallbackRun status failureClass =>
    if (s.db.statusOf runId).any (· ∈ STALE_RUN_STATES) then
      let orphanFailureReason : Option JsString :=
        if status = .failed then some "Run recovered from orphaned state (DB-fallback completion)"
        else none
      (s, some (.fallbackWrite status orphanFailureReason failureClass))
    else (s, none)
  | .fallbackWrite status failureReason failureClass =>
    let u := staleUpdate runId status failureClass
    let t := s.withDb (s.db.updateRuns u)
    if s.db.applies u then
      (t.logWrite .completeRunFromDbFallback c runId status,
        some (.fallbackStamp status failureReason failureClass (.of s.db t.db runId)))
    else (t, none)
  | .fallbackStamp status failureReason failureClass write =>
    (s.modifyRun c runId fun run => { run with completedAt := true },
      some (.staleReason .completeRunFromDbFallback status failureReason failureClass write))
  | .staleReason finisher status failureReason failureClass write =>
    (match failureReason with
      | some reason => s.withDb (s.db.updateRuns (staleReasonUpdate runId reason))
      | none => s,
      some (.forward finisher status failureReason failureClass write))
  | .forward finisher status failureReason failureClass write =>
    (s.forward finisher c runId status failureReason failureClass write, none)
  | .failWrite .onBuildFailed failureReason =>
    let u := buildFailedUpdate runId failureReason
    let t := s.withDb (s.db.updateRuns u)
    (if s.db.applies u then t.logWrite .onBuildFailed c runId .failed else t,
      some (.failClearWindow .onBuildFailed failureReason (.of s.db t.db runId)))
  | .failWrite (.failRun run) failureReason =>
    let u := failRunUpdate runId failureReason
    let t := s.withDb (s.db.updateRuns u)
    (if s.db.applies u then t.logWrite .failRun c runId .failed else t,
      some (.failJobs (.failRun run) failureReason (.of s.db t.db runId)))
  | .failClearWindow path failureReason write =>
    (s.clearWindow instanceId c runId, some (match path with
      | .onBuildFailed => .failJobs path failureReason write
      | .failRun _ => .failForward path failureReason write))
  | .failJobs path failureReason write =>
    (s.withDb (s.db.failJobs runId), some (match path with
      | .onBuildFailed => .failForward path failureReason write
      | .failRun _ => .failClearWindow path failureReason write))
  | .failForward .onBuildFailed failureReason write =>
    match s.runs c runId with
    | some _ =>
      ((s.forward .onBuildFailed c runId .failed (some failureReason) none write).setRef c runId none,
        none)
    | none => (s, none)
  | .failForward (.failRun run) failureReason write =>
    match run with
    | some _ =>
      ((s.forward .failRun c runId .failed (some failureReason) (some .never_started) write).setRef
        c runId none, none)
    | none => (s, none)
  | .neverStartedWrite failureReason =>
    let row := neverStartedRow runId failureReason
    let u := neverStartedUpdate runId failureReason
    let t := s.withDb (s.db.upsertRun row u)
    if s.db.upsertApplies row u then
      (t.logWrite .recordNeverStartedRun c runId .failed,
        some (.neverStartedForward failureReason (.of s.db t.db runId)))
    else (t, none)
  | .neverStartedForward failureReason write =>
    ((s.forward .recordNeverStartedRun c runId .failed (some failureReason) (some .never_started)
      write).modifyRun c runId fun run => { run with completedAt := true }, none)
  | .heldWrite isGlobalEvalRound =>
    let row := heldRow runId isGlobalEvalRound
    let u := heldUpdate runId
    let t := s.withDb (s.db.upsertRun row u)
    (t, some (if s.db.upsertApplies row u then .heldForward (.of s.db t.db runId) else .heldForget))
  | .heldForward write =>
    ((s.forward .recordRunHeld c runId .held none none write).setRef c runId none, none)
  | .heldForget => (s.setRef c runId none, none)

def step : TrackerAction κ → Option (TrackerState κ)
  | .onExecutionStarted c runId checkMode jobs =>
    match s.runs c runId with
    | some ref =>
      if (s.objects[ref]?).any (!·.completedAt) then
        -- A workflow that joins the run adds the jobs that are not there.
        some (s.modify ref fun run => jobs.foldl (fun run job =>
          if (run.job job.jobId).isSome then run else run.setJob job) run)
      else some (s.addRun c runId { jobs, checkMode })
    | none => some (s.addRun c runId { jobs, checkMode })
  | .recoverRunFromDb c runId checkMode driftDetected =>
    match s.run c runId, s.db.statusOf runId with
    | none, some status =>
      if status = .held then none
      else some (s.addRun c runId {
        status := RunState.recoveredStatus status
        checkMode
        driftDetected })
    | _, _ => none
  | .setJob c runId job => some (s.modifyRun c runId (·.setJob job))
  | .deleteJob c runId jobId => some (s.modifyRun c runId (·.deleteJob jobId))
  | .detectDrift c runId => some (s.modifyRun c runId fun run => { run with driftDetected := true })
  | .setRunStatus c runId status => some (s.modifyRun c runId fun run => { run with status })
  | .releaseRunFinishedElsewhere c runId => some (s.modifyRun c runId (·.releaseFinishedElsewhere))
  | .prune c runId => some (s.setRef c runId none)
  | .holdRunForPendingJobs c runId =>
    let t := s.modifyRun c runId (·.holdForPendingJobs)
    -- The first token opens the window.
    if s.tokens c runId = 0 ∧ t.tokens c runId = 1 then some (t.call c runId .openWindow) else some t
  | .releasePendingJobsHold c runId =>
    match s.runs c runId with
    | none => some (s.call c runId (.clearWindow none))
    | some ref =>
      if s.tokens c runId = 0 then some s
      else
        let t := s.modify ref (·.releaseHold)
        if 0 < t.tokens c runId then some t else some (t.call c runId (.clearWindow (some ref)))
  | .checkCompletion c runId =>
    match s.runs c runId with
    | none => none
    | some ref =>
      match s.readyToFinalize c runId ref with
      | (t, some point) => some (t.call c runId point)
      | (t, none) => some t
  | .completeRunIfAllJobsTerminal c runId =>
    some (s.call c runId (.window .completeRunIfAllJobsTerminal))
  | .onBuildFailed c runId message =>
    some (s.call c runId (.failWrite .onBuildFailed (message.getD "Build job failed")))
  | .failRun c runId reason => some (s.call c runId (.failWrite (.failRun (s.runs c runId)) reason))
  | .recordNeverStartedRun c runId failureReason =>
    some (s.call c runId (.neverStartedWrite failureReason))
  | .recordRunHeld c runId isGlobalEvalRound => some (s.call c runId (.heldWrite isGlobalEvalRound))
  | .claimHeldGlobalEvalRound runId => some (s.withDb (s.db.updateRuns (claimRoundUpdate runId)))
  | .completeReleasedGlobalEvalRound c runId reason =>
    some (s.writeAndForward .completeReleasedGlobalEvalRound c runId
      (settleRoundUpdate runId reason) (if reason.isSome then .failed else .success) reason
      (if reason.isSome then some .never_started else none))
  | .resumeHeldRun runId => some (s.withDb (s.db.updateRuns (resumeUpdate runId)))
  | .cancelHeldRun c runId reason =>
    some (s.writeAndForward .cancelHeldRun c runId (ExecutionRun.cancelHeldUpdate runId reason)
      .cancelled (some reason) (some .cancelled))
  | .cancelJoblessRun c runId reason =>
    let reason' := ((s.db.executionRuns.lookup runId).bind (·.failureReason)).getD reason
    some (s.writeAndForward .cancelJoblessRun c runId
      (cancelJoblessUpdate (fun runId => s.db.jobsOf runId = []) runId reason) .cancelled
      (some reason') (some .cancelled))
  | .persistJobStatus job => some (s.withDb (s.db.persistJobStatus job))
  | .deleteJobRow runId jobId => some (s.withDb (s.db.deleteJob runId jobId))
  | .writeRun runId status =>
    some (s.withDb (s.db.upsertRun { runId, status } {
      guard := fun row => row.runId = runId
      set := fun row => { row with status } }))
  | .next k live =>
    match s.calls[k]? with
    | some call =>
      let next := s.nextOf instanceId call.coordinator call.runId live call.point
      some { next.1 with calls := s.calls.take k ++
        (next.2.map fun point => { call with point }).toList ++ s.calls.drop (k + 1) }
    | none => none

/-! ## Reports -/

section Reports

variable {s instanceId} {c : κ} {runId : String} {live : Bool} {point : TrackerPoint} {e : TrackerEvent}

/-- What a call is about to write. -/
def Writes (finisher : Finisher) : TrackerPoint → Prop
  | .finalizeWrite .. => finisher = .finalizeRunCompletion
  | .memoryWrite .. => finisher = .completeRunFromMemoryState
  | .fallbackWrite .. => finisher = .completeRunFromDbFallback
  | .failWrite .onBuildFailed _ => finisher = .onBuildFailed
  | .failWrite (.failRun _) _ => finisher = .failRun
  | .neverStartedWrite _ => finisher = .recordNeverStartedRun
  | _ => False

/-- What a call is about to forward, with the place of its run in memory. -/
def Forwards (memory : Option ℕ) (finisher : Finisher) (status : ExecutionRunStatus) (write : RunWrite) :
    TrackerPoint → Prop
  | .forward f st _ _ w => finisher = f ∧ status = st ∧ write = w
  | .failForward .onBuildFailed _ w =>
    memory ≠ none ∧ finisher = .onBuildFailed ∧ status = .failed ∧ write = w
  | .failForward (.failRun _) _ _ => finisher = .failRun
  | .neverStartedForward _ w => finisher = .recordNeverStartedRun ∧ status = .failed ∧ write = w
  | .heldForward _ => status = .held
  | _ => False

/-- What a call that goes on reports: the write, or the status, that it was about to. -/
theorem mem_events_nextOf (he : e ∈ (s.nextOf instanceId c runId live point).1.events) : e ∈ s.events ∨
    (∃ finisher status, e = .wrote finisher runId status (s.tokens c runId) ∧ Writes finisher point) ∨
    ∃ finisher status failureReason failureClass write,
      e = .forwarded finisher runId status failureReason failureClass write.stored (s.tokens c runId) ∧
      Forwards (s.runs c runId) finisher status write point := by
  have hlog : ∀ {db finisher status} {applies : Prop} [Decidable applies], Writes finisher point →
      e ∈ (if applies then (s.withDb db).logWrite finisher c runId status else s.withDb db).events →
      e ∈ s.events ∨
        ∃ finisher status, e = .wrote finisher runId status (s.tokens c runId) ∧
          Writes finisher point := by
    intro db finisher status applies _ hwrites he
    split at he
    · rw [mem_events_logWrite] at he
      exact he.imp_right fun h => ⟨_, _, h, hwrites⟩
    · exact .inl he
  cases point with
  | openWindow | fallbackJobs | fallbackRun | staleReason =>
    simp only [nextOf] at he
    split at he <;> exact .inl he
  | clearWindow released =>
    simp only [nextOf] at he
    split at he
    · split at he <;> exact .inl (by simpa using he)
    · exact .inl (by simpa using he)
  | syncRunJobsFromRows ref ready =>
    simp only [nextOf] at he
    split at he
    · split at he
      · exact .inl he
      · rw [readyToFinalize_fst] at he
        exact .inl he
    · exact .inl he
  | window caller =>
    simp only [nextOf] at he
    split at he
    · split at he
      · exact .inl (by simpa using he)
      · exact .inl he
    · exact .inl (by simpa using he)
  | liveInstance caller =>
    simp only [nextOf] at he
    split at he
    · exact .inl he
    · exact .inl (by simpa using he)
  | finalizeWrite status failureReason failureClass =>
    exact (hlog rfl he).imp_right .inl
  | memoryWrite | fallbackWrite | neverStartedWrite =>
    simp only [nextOf] at he
    split at he
    · exact (mem_events_logWrite.1 he).imp_right fun h => .inl ⟨_, _, h, rfl⟩
    · exact .inl he
  | fallbackStamp | failClearWindow => exact .inl (by simpa [nextOf] using he)
  | forward finisher status failureReason failureClass write =>
    exact (mem_events_forward.1 he).imp_right fun h => .inr ⟨_, _, _, _, _, h, rfl, rfl, rfl⟩
  | failWrite path failureReason =>
    cases path <;> exact (hlog rfl he).imp_right .inl
  | failJobs | heldWrite | heldForget => exact .inl he
  | failForward path failureReason write =>
    cases path with
    | onBuildFailed =>
      simp only [nextOf] at he
      split at he
      · next ref href =>
        refine (mem_events_forward.1 he).imp_right fun h => .inr ⟨_, _, _, _, _, h, ?_, rfl, rfl, rfl⟩
        rw [href]
        exact Option.some_ne_none ref
      · exact .inl he
    | failRun run =>
      simp only [nextOf] at he
      split at he
      · exact (mem_events_forward.1 he).imp_right fun h => .inr ⟨_, _, _, _, _, h, rfl⟩
      · exact .inl he
  | neverStartedForward failureReason write =>
    simp only [nextOf, modifyRun_events] at he
    exact (mem_events_forward.1 he).imp_right fun h => .inr ⟨_, _, _, _, _, h, rfl, rfl, rfl⟩
  | heldForward write =>
    exact (mem_events_forward.1 he).imp_right fun h => .inr ⟨_, _, _, _, _, h, rfl⟩

end Reports

end TrackerState

/-- The tracking of runs, from any rows and any memory on, with the identities under which the
coordinators are known to each other. -/
def trackerSystem {κ : Type} [DecidableEq κ] (instanceId : κ → Option String) :
    System (TrackerState κ) (TrackerAction κ) where
  init := {s | s.calls = [] ∧ s.events = []}
  step s a := s.step instanceId a

end Kici
