import Kici.Dispatch.Workflow

/-!
# The dispatch of a run

How the jobs of a run come to be dispatched (`DispatchAction`):

* the coordinator that dispatches the workflow goes through its jobs, registers their rows and
  inserts the edges of their needs (`StaticPhase`), and then waits for the init jobs
  (`InitPoint`);
* any coordinator dispatches a job that is ready, for whatever reason it is asked to
  (`dispatchReadyJob`, `ReadyPoint`);
* when a child of a fan-out is over, the next one is released (`runWaveSchedulerHook`,
  `WavePoint`);
* the scheduler of needs looks at the jobs that wait for one that is over (`NeedsAction`).

A call executes a statement at a time, and between two of them anything may happen. What other
code answers comes with the step (`DispatchAnswer`). The log tells which jobs were handed to the
dispatcher or routed, and which are over, in turn.
-/

namespace Kici

/-- The run that is dispatched: its jobs, and what the gates say of them. -/
structure DispatchRun where
  rt : FanoutRuntime
  ctx : WorkflowDispatchContext := {}
  staticJobs : List LockJob
  run : StaticRun
  gates : MaterializedJob → GateVerdict := fun _ => {}

/-- The names of the jobs of the run. -/
def DispatchRun.names (d : DispatchRun) : List JsString := d.run.materializedJobs.map (·.expandedName)

/-- The names of the children of a job. -/
def DispatchRun.childrenOf (d : DispatchRun) (baseName : JsString) : List JsString :=
  (d.run.materializedJobs.filter (·.baseName = baseName)).map (·.expandedName)

/-- What other code answers to a statement. -/
inductive DispatchAnswer
  /-- The statement is executed. -/
  | ok
  | yes
  | no
  /-- The job is dispatched under an id. -/
  | accepted (jobId : String)
  /-- The job is not dispatched, and is recorded under an id. -/
  | refused (jobId : String)
  /-- A new id. -/
  | id (jobId : String)
  /-- The rows that a query finds, in the order it finds them in. -/
  | rows (rows : List ExecutionJob)
  /-- The init job is over; what the gates say of the job and the children of its matrix. -/
  | init (initResult : InitResult) (verdict : GateVerdict) (childGates : MaterializedJob → GateVerdict)
  /-- The init job failed. -/
  | failed

inductive DispatchEvent
  /-- The job was handed to the dispatcher, or routed. -/
  | dispatched (jobId : String) (mat : MaterializedJob)
  /-- The row of a job got a status that is final. -/
  | finished (jobId : String) (jobName : JsString) (status : ExecutionJobStatus)

/-- The part of `dispatchMatchedWorkflow` that is left. -/
inductive StaticPhase
  | start
  | tasks (todo : List StaticTask) (dispatchedJobs : List ExecutionJob)
  /-- Rows are to be registered. -/
  | record (todo dispatchedJobs : List ExecutionJob)
  | edges (dispatchedJobs : List ExecutionJob)
  | catchUp (dispatchedJobs : List ExecutionJob)
  /-- The init jobs are to be started. -/
  | deferred
  | done

/-- A child that is released, with the policy of its wave. -/
structure WaveRelease where
  jobName : JsString
  baseJobName : JsString
  maxParallel : ℕ
  failFast : Bool

inductive WaveResult
  | release (release : WaveRelease)
  | skipRemaining (jobNames : List JsString)
  | noop

/-- `dispatchReadyJob` between two statements. -/
inductive ReadyPoint
  | hasPendingHold
  /-- The edges of the job are to be read. -/
  | needsEdges
  /-- The edges are read, the statuses of the upstream jobs are not. -/
  | needsStatuses (edges : List JobNeed)
  /-- A job is skipped: its context is to be consumed, and its placeholder to get the status. -/
  | skipConsume (jobId : String)
  | skipStatus (jobId : String)
  | contextGate
  | consume
  | dispatch (pending : PendingJobContext)
  /-- The placeholder is to be deleted, and the row of the job to be inserted. -/
  | swapDelete (jobId : String)
  | swapInsert (jobId : String)
  | stampReady (jobId : String)

/-- `runWaveSchedulerHook` between two statements, but for its callback. -/
inductive WavePoint
  | readBase (jobId : String) (completedStatus : ExecutionJobStatus)
  | evaluate (baseJobName : JsString) (completedStatus : ExecutionJobStatus)
  | release (release : WaveRelease)
  /-- The columns of the fan-out are to be written again. -/
  | restamp (release : WaveRelease)
  | skip (jobNames : List JsString)
  | skipUngate (jobId : String) (jobName : JsString) (jobNames : List JsString)
  | skipStatus (jobId : String) (jobName : JsString) (jobNames : List JsString)

/-- A task of `startDeferredInitDispatch` between two statements. -/
inductive InitPoint
  | await (mat : MaterializedJob)
  /-- What is to be done, and the fan-out whose edges are to be inserted then. -/
  | tasks (todo : List StaticTask) (result : Option FanoutResult)
  | register (row : ExecutionJob) (todo : List StaticTask) (result : Option FanoutResult)

inductive PipelineCall (κ : Type)
  /-- `dispatchReadyJob` on a coordinator, as a callback of the release of a child, if it is. -/
  | ready (coordinator : κ) (jobName : JsString) (wave : Option WaveRelease) (point : ReadyPoint)
  | wave (coordinator : κ) (point : WavePoint)
  | init (coordinator : κ) (point : InitPoint)

inductive DispatchAction (κ : Type)
  /-- The coordinator that dispatches the workflow goes on. -/
  | static (answer : DispatchAnswer)
  /-- A job gets a status. -/
  | onJobStatus (jobId : String) (jobName : JsString) (status : ExecutionJobStatus)
  /-- The scheduler of needs takes a step. -/
  | needs (action : NeedsAction)
  | runWaveSchedulerHook (coordinator : κ) (jobId : String) (completedStatus : ExecutionJobStatus)
  | dispatchReadyJob (coordinator : κ) (jobName : JsString)
  | restorePendingJobContexts (coordinator : κ)
  /-- A call executes its next statement. -/
  | next (k : ℕ) (answer : DispatchAnswer)

structure DispatchState (κ : Type) where
  /-- The rows of the jobs and of their needs, and the calls of the scheduler of needs. -/
  needs : NeedsState
  /-- The rows of `pending_job_contexts`. -/
  contexts : List PendingJobContext := []
  /-- What each coordinator has of them in memory. -/
  memory : List (κ × PendingJobContext) := []
  static : StaticPhase := .start
  calls : List (PipelineCall κ) := []
  /-- The ids of jobs, with the names of the jobs. -/
  minted : List (String × JsString) := []
  log : List DispatchEvent := []

/-! ## Statements -/

namespace RunDb

variable (db : RunDb)

/-- Insert the row of a job, or write what is known of it into its row. -/
def insertTracked (row : ExecutionJob) : RunDb :=
  match db.executionJobs.lookup row.jobId with
  | none => { db with executionJobs := db.executionJobs.insertNew row }
  | some _ => db.update {
      guard := fun r => r.jobId = row.jobId
      set := fun r => { r with
        jobName := row.jobName
        baseJobName := row.baseJobName.or r.baseJobName
        variantLabel := row.variantLabel.or r.variantLabel
        waveGated := row.waveGated || r.waveGated
        waveMaxParallel := row.waveMaxParallel.or r.waveMaxParallel
        waveFailFast := row.waveFailFast.or r.waveFailFast } }

/-- The jobs that are children of a job. -/
def childrenOf (baseJobName : JsString) : List ExecutionJob :=
  db.executionJobs.rows.filter fun row => row.baseJobName = some baseJobName

/-- Let the child of a name no longer wait. -/
def ungate (jobName : JsString) : RunDb :=
  db.update {
    guard := fun row => row.jobName = jobName
    set := fun row => { row with waveGated := false } }

/-- The same, by the id of the child. -/
def ungateId (jobId : String) : RunDb :=
  db.update {
    guard := fun row => row.jobId = jobId
    set := fun row => { row with waveGated := false } }

/-- Write the columns of the fan-out of a child that was released. -/
def restamp (release : WaveRelease) : RunDb :=
  db.update {
    guard := fun row => row.jobName = release.jobName
    set := fun row => { row with
      baseJobName := some release.baseJobName
      waveMaxParallel := some release.maxParallel
      waveFailFast := some release.failFast } }

omit db in
theorem jobId_needsSatisfied (row : ExecutionJob) : { row with needsSatisfied := true }.jobId =
    row.jobId := rfl

/-- Mark a job whose needs are satisfied. -/
def stampReady (jobId : String) : RunDb :=
  db.update {
    guard := fun row => row.jobId = jobId
    set := fun row => { row with needsSatisfied := true }
    key_set := jobId_needsSatisfied }

end RunDb

def NEEDS_PENDING_JOB_ID_PREFIX : JsString := "needs-pending-"

/-- Whether an id is that of a placeholder of a job. -/
def isSyntheticJobId (jobName : JsString) (jobId : String) : Bool :=
  (js jobId).startsWith (NEEDS_PENDING_JOB_ID_PREFIX ++ jobName ++ js "-")

/-- The rank of a child among those that are held. -/
def waveLabel (child : ExecutionJob) : JsString := child.variantLabel.getD child.jobName

/-- Whether a child takes one of the places of its wave. -/
def takesPlace (child : ExecutionJob) : Bool := !child.waveGated && child.status ∉ TERMINAL_JOB_STATES

/-- What is to be done when a child of a fan-out is over, from the rows of its children. -/
def FanoutRuntime.evaluateWave (rt : FanoutRuntime) (baseJobName : JsString)
    (completedStatus : ExecutionJobStatus) (children : List ExecutionJob) : WaveResult :=
  match (children.find? (·.waveMaxParallel.isSome)).bind fun row =>
      row.waveMaxParallel.map fun maxParallel => (maxParallel, row.waveFailFast.getD false) with
  | none => .noop
  | some (maxParallel, failFast) =>
    let heldSiblings := rt.sortByLocale waveLabel (children.filter (·.waveGated))
    if failFast ∧ completedStatus ≠ .success then
      if heldSiblings = [] then .noop else .skipRemaining (heldSiblings.map (·.jobName))
    else
      match heldSiblings with
      | [] => .noop
      | next :: _ =>
        if maxParallel ≤ (children.filter takesPlace).length then .noop
        else .release ⟨next.jobName, baseJobName, maxParallel, failFast⟩

/-! ## The state -/

namespace DispatchState

variable {κ : Type} (s : DispatchState κ)

/-- The rows. -/
abbrev db : RunDb := s.needs.db

/-- The state with other rows. -/
def withDb (db : RunDb) : DispatchState κ := { s with needs := { s.needs with db } }

def addCall (call : PipelineCall κ) : DispatchState κ := { s with calls := s.calls ++ [call] }

/-- A new id of a job. -/
def mint (jobId : String) (jobName : JsString) : DispatchState κ :=
  { s with minted := s.minted ++ [(jobId, jobName)] }

/-- Whether no job has the id. -/
def unused (jobId : String) : Bool :=
  (s.minted.lookup jobId).isNone && (s.db.executionJobs.lookup jobId).isNone

/-- Whether an id may be that of a job that is dispatched. -/
def fresh (jobId : String) : Bool :=
  s.unused jobId && !(js jobId).startsWith NEEDS_PENDING_JOB_ID_PREFIX

/-- Hand a job to the dispatcher, which accepts it. -/
def hand (jobId : String) (mat : MaterializedJob) : DispatchState κ :=
  { s.mint jobId mat.expandedName with log := s.log ++ [.dispatched jobId mat] }

/-- The end of a job, if a status of a row is one. -/
def finishedBy (jobId : String) (jobName : JsString) (status : ExecutionJobStatus) :
    List DispatchEvent :=
  if status ∉ TERMINAL_JOB_STATES then []
  else
    match s.db.executionJobs.lookup jobId with
    | none => [.finished jobId jobName status]
    | some row =>
      if row.status ∈ TERMINAL_JOB_STATES then [] else [.finished jobId row.jobName status]

/-- Write the status of a job. -/
def writeStatus (jobId : String) (jobName : JsString) (status : ExecutionJobStatus) :
    DispatchState κ :=
  { s.withDb (s.db.writeStatus jobId jobName status) with
    log := s.log ++ s.finishedBy jobId jobName status }

/-- Whether there may be a report about a job. Agents report about the jobs they were given, under
their names; a coordinator that does not find the row of a job writes that it failed. -/
def reportable (d : DispatchRun) (jobId : String) (jobName : JsString) (status : ExecutionJobStatus) :
    Bool :=
  (s.db.executionJobs.lookup jobId).isSome ||
    match s.minted.lookup jobId with
    | some name => name = jobName
    | none => jobName ∉ d.names || status ∈ TERMINAL_JOB_STATES

/-- Store a job until something releases it. -/
def store (c : κ) (pending : PendingJobContext) : DispatchState κ :=
  { s with
    contexts := s.contexts.filter (·.jobName ≠ pending.jobName) ++ [pending]
    memory := s.memory ++ [(c, pending)] }

/-- The id of the placeholder of a job. -/
def findSyntheticJobId (jobName : JsString) : Option String :=
  (s.db.executionJobs.rows.find? fun row =>
    row.jobName = jobName && isSyntheticJobId jobName row.jobId).map (·.jobId)

/-- Delete the placeholder of a job. -/
def deleteSynthetic (jobName : JsString) : DispatchState κ :=
  match s.findSyntheticJobId jobName with
  | none => s
  | some jobId => s.withDb { s.db with executionJobs := s.db.executionJobs.delete jobId }

/-- Whether the job of an id is over. -/
def isOver (jobId : String) : Bool :=
  s.log.any fun e =>
    match e with
    | .dispatched _ _ => false
    | .finished jobId' _ _ => jobId' = jobId

/-- The children of a job that were dispatched and are not over. -/
def inFlight (baseName : JsString) : List JsString :=
  (s.log.filterMap fun e =>
    match e with
    | .dispatched jobId mat =>
      if mat.baseName = baseName && !s.isOver jobId then some mat.expandedName else none
    | .finished _ _ _ => none).dedup

variable [DecidableEq κ]

/-- Take a job out of what is stored: from memory if it is there, and else from the rows. -/
def consume (c : κ) (jobName : JsString) : DispatchState κ × Option PendingJobContext :=
  let rest := s.contexts.filter (·.jobName ≠ jobName)
  -- What was stored last is in the map.
  match (s.memory.filter fun e => e.1 = c ∧ e.2.jobName = jobName).getLast? with
  | some (_, pending) =>
    ({ s with
        contexts := rest
        memory := s.memory.filter fun e => ¬(e.1 = c ∧ e.2.jobName = jobName) }, some pending)
  | none => ({ s with contexts := rest }, s.contexts.find? (·.jobName = jobName))

/-! ## Calls -/

variable (d : DispatchRun)

/-- The next statement of the dispatch of a workflow. -/
def staticNext (c : κ) : StaticPhase → DispatchAnswer → Option (DispatchState κ)
  | .start, .yes => some { s with
      static := .tasks (staticTasks d.rt
        (d.ctx.evaluateJobContexts d.gates d.run.materializedJobs).jobContextData true d.run) [] }
  | .start, .no => some { s with
      static := .tasks (staticTasks d.rt
        (d.ctx.evaluateJobContexts d.gates d.run.materializedJobs).jobContextData false d.run) [] }
  | .tasks (.record row :: todo) jobs, .id jobId =>
    if s.fresh jobId then
      some { s.mint jobId row.jobName with static := .tasks todo (jobs ++ [{ row with jobId }]) }
    else none
  | .tasks (.store pending row :: todo) jobs, .id jobId =>
    if s.unused jobId && isSyntheticJobId row.jobName jobId then
      some { (s.store c pending).mint jobId row.jobName with
        static := .tasks todo (jobs ++ [{ row with jobId }]) }
    else none
  | .tasks (.hand mat row :: todo) jobs, .accepted jobId =>
    if s.fresh jobId then
      some { s.hand jobId mat with static := .tasks todo (jobs ++ [{ row with jobId }]) }
    else none
  | .tasks (.hand _ row :: todo) jobs, .refused jobId =>
    if s.fresh jobId then
      some { s.mint jobId row.jobName with static := .tasks todo (jobs ++ [{ row with jobId }]) }
    else none
  -- A job that cannot be routed gets no row.
  | .tasks (.hand _ _ :: todo) jobs, .no => some { s with static := .tasks todo jobs }
  | .tasks [] [], .ok => some { s with static := .deferred }
  | .tasks [] jobs, .ok => some { s with static := .record jobs jobs }
  | .record (row :: todo) jobs, .ok =>
    some { s.withDb (s.db.insertTracked row) with static := .record todo jobs }
  | .record [] jobs, .ok => some { s with static := .edges jobs }
  | .edges jobs, .ok =>
    some { s.withDb (s.db.insertEdgesForRun d.run.materializedJobs d.run.expansionMap) with
      static := .catchUp jobs }
  -- An insertion that fails is only logged.
  | .edges _, .no => some { s with static := .deferred }
  | .catchUp jobs, .ok =>
    let gatedNames := (jobs.filter fun row =>
      (js row.jobId).startsWith NEEDS_PENDING_JOB_ID_PREFIX && !row.waveGated).map (·.jobName)
    let recomputable := ((s.db.executionJobNeeds.rows.map (·.jobName)).filter
      (· ∈ gatedNames)).eraseDups
    some { s with
      needs := { s.needs with calls := s.needs.calls ++ [.resume (.recompute recomputable)] }
      static := .deferred }
  | .deferred, .ok =>
    let jobs := (d.ctx.evaluateJobContexts d.gates d.run.materializedJobs).deferredInitJobs
    some { s with
      calls := s.calls ++ jobs.map fun mat => .init c (.await mat)
      static := .done }
  | _, _ => none

/-- The next statement of `dispatchReadyJob`, and where it is then, unless it is over. -/
def readyNext (c : κ) (jobName : JsString) :
    ReadyPoint → DispatchAnswer → Option (DispatchState κ × Option ReadyPoint)
  | .hasPendingHold, .yes => some (s, none)
  | .hasPendingHold, .no => some (s, some .needsEdges)
  | .needsEdges, .ok => some (s, some (.needsStatuses (s.db.edgesOf jobName)))
  | .needsStatuses edges, .ok =>
    match s.db.checkEdges edges with
    | .waiting => some (s, none)
    | .dispatch => some (s, some .contextGate)
    | .skip _ => some (s, (s.findSyntheticJobId jobName).map .skipConsume)
  | .skipConsume jobId, .ok => some ((s.consume c jobName).1, some (.skipStatus jobId))
  | .skipStatus jobId, .ok =>
    if s.reportable d jobId jobName .skipped then some (s.writeStatus jobId jobName .skipped, none)
      else none
  | .contextGate, .yes => some (s, some .consume)
  | .contextGate, .no => some (s, none)
  | .consume, .ok =>
    match s.consume c jobName with
    | (t, none) => some (t, none)
    -- An invoke gate starts other runs instead.
    | (t, some pending) => some (t, if pending.invoke then none else some (.dispatch pending))
  | .dispatch pending, .accepted jobId =>
    if s.fresh jobId then some (s.hand jobId pending.mat, some (.swapDelete jobId)) else none
  | .dispatch _, .no => some (s, none)
  | .swapDelete jobId, .ok => some (s.deleteSynthetic jobName, some (.swapInsert jobId))
  -- A coordinator that does not have the run in memory leaves the placeholder.
  | .swapDelete jobId, .no => some (s, some (.stampReady jobId))
  | .swapInsert jobId, .ok =>
    some (s.withDb (s.db.insertTracked { pendingRow jobName with jobId }), some (.stampReady jobId))
  | .stampReady jobId, .ok => some (s.withDb (s.db.stampReady jobId), none)
  | _, _ => none

/-- The next statement of `runWaveSchedulerHook`, and the call then, unless it is over. -/
def waveNext (c : κ) : WavePoint → DispatchAnswer → Option (DispatchState κ × Option (PipelineCall κ))
  | .readBase jobId completedStatus, .ok =>
    some (s, ((s.db.executionJobs.lookup jobId).bind (·.baseJobName)).map fun baseJobName =>
      .wave c (.evaluate baseJobName completedStatus))
  | .evaluate baseJobName completedStatus, .rows rows =>
    if rows.isPerm (s.db.childrenOf baseJobName) then
      match d.rt.evaluateWave baseJobName completedStatus rows with
      | .noop => some (s, none)
      | .release release => some (s, some (.wave c (.release release)))
      | .skipRemaining jobNames => some (s, some (.wave c (.skip jobNames)))
    else none
  | .release release, .ok =>
    some (s.withDb (s.db.ungate release.jobName),
      some (.ready c release.jobName (some release) .hasPendingHold))
  | .restamp release, .ok => some (s.withDb (s.db.restamp release), none)
  | .skip [], .ok => some (s, none)
  | .skip (jobName :: jobNames), .ok =>
    match s.db.executionJobs.rows.find? (·.jobName = jobName) with
    | none => some (s, some (.wave c (.skip jobNames)))
    | some row => some (s, some (.wave c (.skipUngate row.jobId jobName jobNames)))
  | .skipUngate jobId jobName jobNames, .ok =>
    some (s.withDb (s.db.ungateId jobId), some (.wave c (.skipStatus jobId jobName jobNames)))
  | .skipStatus jobId jobName jobNames, .ok =>
    if s.reportable d jobId jobName .skipped then
      some (s.writeStatus jobId jobName .skipped, some (.wave c (.skip jobNames)))
    else none
  | _, _ => none

/-- The next statement of a task that waits for an init job, and where it is then. -/
def initNext (c : κ) : InitPoint → DispatchAnswer → Option (DispatchState κ × Option InitPoint)
  | .await mat, .init initResult verdict childGates =>
    let before := (d.ctx.evaluateJobContext d.gates mat).toGateVerdict
    let (todo, result) := initTasks d.rt d.ctx mat initResult before verdict childGates
    some (s, some (.tasks todo result))
  | .await mat, .failed => some (s, some (.tasks [.record (pendingRow mat.expandedName)] none))
  | .tasks (.record row :: todo) result, .id jobId =>
    if s.fresh jobId then
      some (s.mint jobId row.jobName, some (.register { row with jobId } todo result))
    else none
  | .tasks (.store pending row :: todo) result, .id jobId =>
    if s.unused jobId && isSyntheticJobId row.jobName jobId then
      some ((s.store c pending).mint jobId row.jobName,
        some (.register { row with jobId } todo result))
    else none
  | .tasks (.hand mat row :: todo) result, .accepted jobId =>
    if s.fresh jobId then
      some (s.hand jobId mat, some (.register { row with jobId } todo result))
    else none
  | .tasks (.hand _ row :: todo) result, .refused jobId =>
    if s.fresh jobId then
      some (s.mint jobId row.jobName, some (.register { row with jobId } todo result))
    else none
  | .tasks (.hand _ _ :: todo) result, .no => some (s, some (.tasks todo result))
  | .tasks [] (some result), .ok =>
    some (s.withDb (s.db.insertEdgesForRun result.jobs result.expansionMap), none)
  | .tasks [] none, .ok => some (s, none)
  | .register row todo result, .ok =>
    some (s.withDb (s.db.insertTracked row), some (.tasks todo result))
  | _, _ => none

/-- The next statement of a call, and the call then, unless it is over. -/
def callNext : PipelineCall κ → DispatchAnswer → Option (DispatchState κ × Option (PipelineCall κ))
  | .ready c jobName wave point, answer =>
    (s.readyNext d c jobName point answer).map fun (t, next) =>
      match next with
      | some point => (t, some (.ready c jobName wave point))
      -- The callback of a release is over, and the release goes on.
      | none => (t, wave.map fun release => .wave c (.restamp release))
  | .wave c point, answer => s.waveNext d c point answer
  | .init c point, answer => (s.initNext d c point answer).map fun (t, next) => (t, next.map (.init c))

/-- A step; `c` is the coordinator that dispatches the workflow. -/
def step (c : κ) : DispatchAction κ → Option (DispatchState κ)
  | .static answer => s.staticNext d c s.static answer
  | .onJobStatus jobId jobName status =>
    if s.reportable d jobId jobName status then some (s.writeStatus jobId jobName status) else none
  -- Statuses are written by `onJobStatus`.
  | .needs (.writeStatus ..) => none
  | .needs action => (s.needs.step d.staticJobs action).map fun needs => { s with needs }
  | .runWaveSchedulerHook c jobId completedStatus =>
    some (s.addCall (.wave c (.readBase jobId completedStatus)))
  | .dispatchReadyJob c jobName => some (s.addCall (.ready c jobName none .hasPendingHold))
  | .restorePendingJobContexts c =>
    some { s with memory := s.memory ++ s.contexts.map fun pending => (c, pending) }
  | .next k answer => do
    let call ← s.calls[k]?
    let (t, rest) ← s.callNext d call answer
    some { t with calls := t.calls.take k ++ rest.toList ++ t.calls.drop (k + 1) }

end DispatchState

/-- The dispatch of a run by a coordinator, from the start on. -/
def dispatchSystem {κ : Type} [DecidableEq κ] (d : DispatchRun) (c : κ) :
    System (DispatchState κ) (DispatchAction κ) where
  init := {{ needs := { db := ⟨.empty _, .empty _⟩ } }}
  step s a := s.step d c a

end Kici
