import Kici.Dispatch.StaticPaths

/-!
# The jobs that are registered with a run

When a workflow is dispatched, its jobs are handed to the dispatcher by a coordinator on its own, or
routed by one that has peers (`RouteCall`), and registered together (`StaticPoint`). A job that
waits for an init job is dispatched and registered by a task of its own (`InitCall`). The run is
not complete as long as one of these holds a token (`RegistrationState.pendingJobRegistrations`).

A job that is not registered by then does not count for the run. This happens where `routeJobs`
finds nobody who takes a job, which is only logged, and where a job is held, but the hold is not
stored. `RegistrationState.keepsJobs` tells the steps in which none of this happens.
-/

namespace Kici

/-! ## Answers -/

/-- What the dispatcher does with a job. -/
inductive DispatchResult
  | dispatched (jobId : String)
  | queued (jobId : String)
  | queuedNoBackend (jobId : String)
  | duplicate (jobId : String)
  | rejected (reason : JsString)

/-- What comes of asking the peers to take a job. -/
inductive RerouteResult
  | success (jobId : String)
  | failure (reason : JsString)

/-- The id that a job is registered under: that of its dispatch, or a new one. -/
inductive RegisteredId
  | dispatched (jobId : String)
  | needsPending
  | rejected
  | matrixFailed
  | initFailed

/-- The id of a job that was handed to the dispatcher. -/
def DispatchResult.registeredId : DispatchResult → RegisteredId
  | .dispatched jobId | .queued jobId | .queuedNoBackend jobId | .duplicate jobId => .dispatched jobId
  | .rejected _ => .rejected

structure RegisteredJob extends DispatchedJob where
  jobId : RegisteredId

/-! ## Routing -/

/-- A job that the peers are asked to take; it may be queued here meanwhile. -/
structure RerouteEntry where
  job : JobInput
  localFallbackJobId : Option String

structure RoutedJob where
  jobName : JsString
  jobId : String

structure FailedRoute where
  jobName : JsString
  reason : JsString

structure RouteResult where
  localJobs : List RoutedJob := []
  reroutedJobs : List RoutedJob := []
  failedJobs : List FailedRoute := []

/-- `routeJobs` between two answers: the jobs that are to be dispatched here, and those that it
waits for peers to take. -/
structure RouteCall where
  jobs : List JobInput
  toReroute : List RerouteEntry := []
  result : RouteResult := {}

namespace RouteCall

variable (call : RouteCall)

/-- The answer of the dispatcher to the next job. -/
def dispatched (answer : DispatchResult) : Option RouteCall :=
  match call.jobs with
  | [] => none
  | job :: jobs =>
    let result := call.result
    match answer with
    | .rejected _ => some { call with jobs, toReroute := call.toReroute ++ [⟨job, none⟩] }
    | .queuedNoBackend jobId =>
      some { call with jobs, toReroute := call.toReroute ++ [⟨job, some jobId⟩] }
    | .dispatched jobId | .queued jobId | .duplicate jobId => some { call with
        jobs
        result := { result with localJobs := result.localJobs ++ [⟨job.jobName, jobId⟩] } }

/-- What comes of one of the jobs that the peers were asked to take, once all were dispatched. -/
def rerouted (k : ℕ) (answer : RerouteResult) : Option RouteCall :=
  match call.jobs, call.toReroute[k]? with
  | [], some entry =>
    let result := call.result
    some { call with
      toReroute := call.toReroute.eraseIdx k
      result :=
        match answer, entry.localFallbackJobId with
        | .success jobId, _ =>
          { result with reroutedJobs := result.reroutedJobs ++ [⟨entry.job.jobName, jobId⟩] }
        -- The job is still in the queue here.
        | .failure _, some jobId =>
          { result with localJobs := result.localJobs ++ [⟨entry.job.jobName, jobId⟩] }
        | .failure reason, none =>
          { result with failedJobs := result.failedJobs ++ [⟨entry.job.jobName, reason⟩] } }
  | _, _ => none

/-- Whether all jobs are routed. -/
def isRouted : Bool := call.jobs.isEmpty && call.toReroute.isEmpty

/-- The names of the jobs, wherever they are. -/
def jobNames : List JsString :=
  call.jobs.map (·.jobName) ++ call.toReroute.map (·.job.jobName) ++
    (call.result.localJobs.map (·.jobName) ++ call.result.reroutedJobs.map (·.jobName) ++
      call.result.failedJobs.map (·.jobName))

end RouteCall

/-! ## After an init job -/

/-- What is done with a job when its init job is over. -/
inductive InitTask
  | recordContextRuleRejectionAfterInit (mat : MaterializedJob)
  | recordMatrixFailure (mat : MaterializedJob)
  | holdExecutionAfterInit (mat : MaterializedJob)
  | dispatchExecutionAfterInit (mat : MaterializedJob)

/-- The name that the job is registered under. -/
def InitTask.jobName : InitTask → JsString
  | .recordContextRuleRejectionAfterInit mat | .holdExecutionAfterInit mat
  | .dispatchExecutionAfterInit mat => mat.expandedName
  | .recordMatrixFailure mat => mat.baseName

/-- The task of the dispatch of a run. -/
def InitTask.task : InitTask → StaticTask
  | .recordContextRuleRejectionAfterInit mat => .record (trackedRow mat)
  | .recordMatrixFailure mat => .record (pendingRow mat.baseName)
  | .holdExecutionAfterInit mat => .store { mat } (trackedRow mat)
  | .dispatchExecutionAfterInit mat => .hand mat (pendingRow mat.expandedName)

/-- What is done with a job, or a child of its matrix, once its contexts are known. -/
def afterInit (mat : MaterializedJob) (verdict : GateVerdict) : InitTask :=
  if verdict.rejected then .recordContextRuleRejectionAfterInit mat
  else if verdict.held then .holdExecutionAfterInit mat
  else .dispatchExecutionAfterInit mat

/-- What an init job leads to. -/
inductive InitOutcome
  /-- The workflow does not apply. -/
  | suppressed
  | single (task : InitTask)
  /-- The children of the matrix take the place of the job. -/
  | matrix (children : List InitTask) (result : FanoutResult)

/-- What is done with a job that its contexts admit, or hold: a matrix whose values are known is
resolved first, and held child by child. -/
def dispatchAfterInit (rt : FanoutRuntime) (mat : MaterializedJob)
    (matrixValues : Option (List MatrixValues))
    (verdict : GateVerdict) (childGates : MaterializedJob → GateVerdict) : InitOutcome :=
  match mat.pendingDynamicMatrix, matrixValues with
  | some true, some combos =>
    match rt.materializeResolvedMatrix mat.lockJob combos with
    | .error _ => .single (.recordMatrixFailure mat)
    | .ok result => .matrix
        (result.jobs.map fun child =>
          afterInit child (if verdict.held then verdict else childGates child)) result
  | _, _ => .single (afterInit mat verdict)

/-- What the result of an init job leads to; `before` and `verdict` are what the gates say of the
job before and after it, `childGates` what they say of the children of its matrix. -/
def resolveInit (rt : FanoutRuntime) (ctx : WorkflowDispatchContext) (mat : MaterializedJob)
    (initResult : InitResult) (before verdict : GateVerdict)
    (childGates : MaterializedJob → GateVerdict) : InitOutcome :=
  match initDispatchSuppression ctx initResult before with
  | some .paths | some .filter => .suppressed
  | suppression =>
    if suppression = some .gated ∧
      before.rejected then .single (.recordContextRuleRejectionAfterInit mat)
    else if verdict.rejected then .single (.recordContextRuleRejectionAfterInit mat)
    else dispatchAfterInit rt mat initResult.matrixValues verdict childGates

/-- The tasks that are left, and the fan-out whose edges are inserted then. -/
def InitOutcome.tasks : InitOutcome → List InitTask × Option FanoutResult
  | .suppressed => ([], none)
  | .single task => ([task], none)
  | .matrix children result => (children, some result)

/-! ## The dispatch of a workflow -/

/-- A workflow that is dispatched; `stored` tells which holds are stored. -/
structure Registration where
  rt : FanoutRuntime
  ctx : WorkflowDispatchContext := {}
  run : StaticRun
  gates : MaterializedJob → GateVerdict := fun _ => {}
  stored : MaterializedJob → Bool := fun _ => true

/-- `dispatchMatchedWorkflow` between two answers. -/
inductive StaticPoint
  | start
  /-- A coordinator on its own goes through the jobs. -/
  | singleOrch (todo : List StaticOutcome)
  | route (call : RouteCall)
  /-- The routing took too long, and the jobs are dispatched here. -/
  | fallback (todo : List JobInput)
  | recordRunStart
  | startDeferredPhases
  | release
  | done

/-- A task of `startDeferredInitDispatch` between two answers. -/
inductive InitCallPoint
  /-- The init job is to be dispatched. -/
  | dispatch
  /-- It is waited for. -/
  | track
  | tasks (todo : List InitTask)
  | route (mat : MaterializedJob) (call : RouteCall) (todo : List InitTask)
  | release

/-- A task that waits for the init job of a job. -/
structure InitCall where
  mat : MaterializedJob
  point : InitCallPoint := .dispatch

/-- What an init job told of a job. -/
inductive InitEvent
  | suppressed (jobName : JsString)
  | expanded (jobName : JsString) (children : List JsString)

inductive RegistrationAnswer
  | ok
  /-- Whether the coordinator has peers. -/
  | peers (hasConnectedPeers : Bool)
  | dispatch (result : DispatchResult)
  /-- What comes of one of the jobs that peers were asked to take. -/
  | reroute (k : ℕ) (result : RerouteResult)
  | timeout
  /-- The init job is over; what the gates say of the job and the children of its matrix. -/
  | init (initResult : InitResult) (verdict : GateVerdict) (childGates : MaterializedJob → GateVerdict)
  | failed

inductive RegistrationAction
  | static (answer : RegistrationAnswer)
  | init (k : ℕ) (answer : RegistrationAnswer)

structure RegistrationState where
  point : StaticPoint := .start
  dispatchedJobs : List RegisteredJob := []
  /-- The jobs that the tracker was told of. -/
  registered : List RegisteredJob := []
  /-- The tokens that are held for the run. -/
  pendingJobRegistrations : ℕ := 0
  inits : List InitCall := []
  events : List InitEvent := []

namespace Registration

variable (d : Registration)

def evalResult : JobEnvEvalResult := d.ctx.evaluateJobContexts d.gates d.run.materializedJobs

/-- What is known of the jobs by their names. -/
def jobContextData : JsObject JobEnvData := d.evalResult.jobContextData

/-- The jobs that a coordinator with peers routes. -/
def routedJobs : List MaterializedJob := rootDispatchableJobs d.jobContextData d.run.materializedJobs

/-- What the tracker is told of a job that is routed, or would be. -/
def routedJob (jobName : JsString) : DispatchedJob where
  jobName
  matrixValues := (byExpandedName (·.variantValues) d.routedJobs).get jobName
  gitCredentials := (byExpandedName (·.lockJob.gitCredentials) d.routedJobs).get jobName

/-- The jobs that the rules of their contexts reject. -/
def contextRuleRejections : List RegisteredJob :=
  (d.run.materializedJobs.filter fun mat => (envDataOf d.jobContextData mat).rejected &&
    !(envDataOf d.jobContextData mat).pendingInit).map fun mat =>
      { ({ jobName := mat.expandedName, matrixValues := mat.variantValues } :
          DispatchedJob).variantTrackingFields mat with jobId := .rejected }

/-- The jobs that a coordinator with peers does not route: those that are held, invoke gates, and
those that wait for others. -/
def gatedJobs : List RegisteredJob :=
  ((dispatchClusterPath d.stored d.jobContextData d.run.materializedJobs).filter
    (·.gate ≠ .dispatched)).map
    fun outcome => { outcome.job with jobId := .needsPending }

/-- The fan-outs that could not be materialized. -/
def matrixFailures : List RegisteredJob :=
  d.run.matrixFailures.map fun failure => { jobName := failure.jobName, jobId := .matrixFailed }

/-- What the dispatch goes on with: a coordinator that has peers routes jobs if there are any to
route. -/
def startPoint (hasConnectedPeers : Bool) : StaticPoint :=
  if hasConnectedPeers then
    if d.routedJobs = [] then .recordRunStart else .route { jobs := d.routedJobs.map routeJobInput }
  else .singleOrch (dispatchSingleOrchPath d.rt d.stored d.jobContextData d.run.materializedJobs)

/-- The token of the dispatch itself, which is taken if there are jobs. -/
def windowTokens : ℕ := if d.run.materializedJobs = [] then 0 else 1

end Registration

namespace RegistrationState

variable (d : Registration) (s : RegistrationState)

/-- Note a job that is to be registered with the others. -/
def push (job : DispatchedJob) (jobId : RegisteredId) : RegistrationState :=
  { s with dispatchedJobs := s.dispatchedJobs ++ [{ job with jobId }] }

/-- Tell the tracker of a job. -/
def addJobsToRun (jobs : List RegisteredJob) : RegistrationState :=
  { s with registered := s.registered ++ jobs }

/-- The next step of the dispatch of a workflow. -/
def staticNext : StaticPoint → RegistrationAnswer → Option RegistrationState
  | .start, .peers hasConnectedPeers => some { s with
      pendingJobRegistrations := s.pendingJobRegistrations + d.windowTokens
      dispatchedJobs := s.dispatchedJobs ++ d.contextRuleRejections ++
        if hasConnectedPeers then d.gatedJobs else []
      point := d.startPoint hasConnectedPeers }
  | .singleOrch (outcome :: todo), .ok =>
    if outcome.gate = .dispatched then none
    else some { s.push outcome.job .needsPending with point := .singleOrch todo }
  | .singleOrch (outcome :: todo), .dispatch result =>
    if outcome.gate = .dispatched then
      some { s.push outcome.job result.registeredId with point := .singleOrch todo }
    else none
  | .singleOrch [], .ok => some { s with point := .recordRunStart }
  | .route call, .dispatch result => (call.dispatched result).map fun call =>
    { s with point := .route call }
  | .route call, .reroute k result => (call.rerouted k result).map fun call =>
    { s with point := .route call }
  -- A job that nobody takes is only logged.
  | .route call, .ok =>
    if call.isRouted then
      some { s with
        dispatchedJobs := s.dispatchedJobs ++ (call.result.localJobs ++ call.result.reroutedJobs).map
          fun routed => { d.routedJob routed.jobName with jobId := .dispatched routed.jobId }
        point := .recordRunStart }
    else none
  | .route _, .timeout => some { s with point := .fallback (d.routedJobs.map routeJobInput) }
  | .fallback (job :: todo), .dispatch result =>
    some { s.push (d.routedJob job.jobName) result.registeredId with point := .fallback todo }
  | .fallback [], .ok => some { s with point := .recordRunStart }
  | .recordRunStart, .ok =>
    some { s.addJobsToRun (s.dispatchedJobs ++ d.matrixFailures) with point := .startDeferredPhases }
  -- Each task takes a token of its own.
  | .startDeferredPhases, .ok => some { s with
      inits := s.inits ++ d.evalResult.deferredInitJobs.map fun mat => { mat }
      pendingJobRegistrations := s.pendingJobRegistrations + d.evalResult.deferredInitJobs.length
      point := .release }
  | .release, .ok => some { s with
      pendingJobRegistrations := s.pendingJobRegistrations - d.windowTokens
      point := .done }
  | _, _ => none

/-- Note what an init job told of a job. -/
def note (jobName : JsString) : InitOutcome → RegistrationState
  | .suppressed => { s with events := s.events ++ [.suppressed jobName] }
  | .single _ => s
  | .matrix _ result =>
    { s with events := s.events ++ [.expanded jobName (result.jobs.map (·.expandedName))] }

/-- The next step of a task that waits for an init job, and where it is then, unless it is over. -/
def initNext (mat : MaterializedJob) :
    InitCallPoint → RegistrationAnswer → Option (RegistrationState × Option InitCallPoint)
  | .dispatch, .dispatch result =>
    match result with
    | .rejected _ | .duplicate _ => some (s.addJobsToRun [initFailedJob], some .release)
    | .dispatched _ | .queued _ | .queuedNoBackend _ => some (s, some .track)
  | .track, .failed => some (s.addJobsToRun [initFailedJob], some .release)
  | .track, .init initResult verdict childGates =>
    let outcome := resolveInit d.rt d.ctx mat initResult
      (envDataOf d.jobContextData mat).toGateVerdict verdict
      childGates
    some (s.note mat.expandedName outcome, some (.tasks outcome.tasks.1))
  | .tasks (.recordContextRuleRejectionAfterInit mat :: todo), .ok =>
    some (s.addJobsToRun [{ ({ jobName := mat.expandedName, matrixValues := mat.variantValues } :
      DispatchedJob).variantTrackingFields mat with jobId := .rejected }], some (.tasks todo))
  | .tasks (.recordMatrixFailure mat :: todo), .ok =>
    some (s.addJobsToRun [{ jobName := mat.baseName, jobId := .matrixFailed }], some (.tasks todo))
  | .tasks (.holdExecutionAfterInit mat :: todo), .ok =>
    some (s.addJobsToRun ((holdJobForApproval d.stored mat).toList.map fun outcome =>
      { outcome.job with jobId := .needsPending }), some (.tasks todo))
  -- A coordinator on its own dispatches the job.
  | .tasks (.dispatchExecutionAfterInit mat :: todo), .dispatch result =>
    some (s.addJobsToRun [{
      jobName := mat.expandedName
      matrixValues := mat.variantValues
      gitCredentials := mat.lockJob.gitCredentials
      jobId := result.registeredId }], some (.tasks todo))
  | .tasks (.dispatchExecutionAfterInit mat :: todo), .peers true =>
    some (s, some (.route mat { jobs := [routeJobInput mat] } todo))
  | .tasks [], .ok => some (s, some .release)
  | .route mat call todo, .dispatch result =>
    (call.dispatched result).map fun call => (s, some (.route mat call todo))
  | .route mat call todo, .reroute k result =>
    (call.rerouted k result).map fun call => (s, some (.route mat call todo))
  -- A job that stays here is registered; one that a peer took was when it did (`registerJobName`).
  | .route mat call todo, .ok =>
    if call.isRouted then
      some (s.addJobsToRun ((call.result.localJobs ++ call.result.reroutedJobs).map fun routed => {
        jobName := routed.jobName
        gitCredentials := mat.lockJob.gitCredentials
        jobId := .dispatched routed.jobId }), some (.tasks todo))
    else none
  | .release, .ok => some ({ s with pendingJobRegistrations := s.pendingJobRegistrations - 1 }, none)
  | _, _ => none
where
  /-- The job failed with its init job. -/
  initFailedJob : RegisteredJob :=
    { jobName := mat.expandedName, matrixValues := mat.variantValues, jobId := .initFailed }

def step : RegistrationAction → Option RegistrationState
  | .static answer => s.staticNext d s.point answer
  | .init k answer => do
    let call ← s.inits[k]?
    let (t, next) ← s.initNext d call.mat call.point answer
    some { t with inits := t.inits.take k ++ (next.map fun point => { call with point }).toList ++
      t.inits.drop (k + 1) }

end RegistrationState

/-- The dispatch of a workflow, as far as its jobs are registered. -/
def registrationSystem (d : Registration) : System RegistrationState RegistrationAction where
  init := {{}}
  step s a := s.step d a

/-! ## Runs in which no job is lost -/

/-- The dispatch loses no job in its next step: all holds are stored, and no job that was routed has
failed when the result of `routeJobs` is taken. -/
def StaticPoint.keepsJobs (d : Registration) : StaticPoint → RegistrationAnswer → Bool
  | .start, _ => d.run.materializedJobs.all fun mat =>
    let envData := envDataOf d.jobContextData mat
    !envData.held || envData.rejected || envData.pendingInit || d.stored mat
  | .route call, .ok => call.result.failedJobs.isEmpty
  | _, _ => true

/-- A task loses no job in its next step: a hold is stored, and a job that was routed has not failed. -/
def InitCallPoint.keepsJobs (d : Registration) : InitCallPoint → RegistrationAnswer → Bool
  | .tasks (.holdExecutionAfterInit mat :: _), .ok => d.stored mat
  | .route _ call _, .ok => call.result.failedJobs.isEmpty
  | _, _ => true

namespace RegistrationState

variable (d : Registration) (s : RegistrationState)

/-- A step that loses no job. -/
def keepsJobs : RegistrationAction → Bool
  | .static answer => s.point.keepsJobs d answer
  | .init k answer => (s.inits[k]?).all fun call => call.point.keepsJobs d answer

/-- The tracker was told of a job of the name. -/
def Registered (jobName : JsString) : Prop := ∃ job ∈ s.registered, job.jobName = jobName

/-- A job is registered, or its init job told that it is not to run, or the children of its matrix are
registered in its place. -/
def Accounted (jobName : JsString) : Prop :=
  s.Registered jobName ∨ .suppressed jobName ∈ s.events ∨
    ∃ children, .expanded jobName children ∈ s.events ∧ ∀ child ∈ children, s.Registered child

end RegistrationState

end Kici
