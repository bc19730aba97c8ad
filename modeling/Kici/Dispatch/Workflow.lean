import Kici.Needs.Scheduler

/-!
# The jobs of a workflow at its dispatch

What is to be done with each job when a workflow is dispatched:

* `evaluateJobContexts`: which jobs wait for an init job, whose agent tells what the lock file
  leaves open, and which are rejected or held;
* `computeWavePlan`: which children of a fan-out wait for others to end;
* `staticTasks`: what is done with the jobs, in turn (`StaticTask`), by a coordinator on its own
  (`singleOrchTask`) or by one that has peers (`clusterTasks`);
* `initTasks`: what is done with a job when its init job is over.
-/

namespace Kici

/-! ## Contexts -/

/-- What the dispatch knows of the workflow and of the coordinator. -/
structure WorkflowDispatchContext where
  contexts : Option (List JsString) := none
  hasFilter : Bool := false
  /-- Whether the paths of the workflow are still to be compared with the files that changed. -/
  deferredPaths : Bool := false
  /-- Whether the coordinator can wait for init jobs. -/
  pendingInits : Bool := true

/-- What the rules of its contexts, and the approvals it asks for, make of a job. -/
structure GateVerdict where
  rejected : Bool := false
  held : Bool := false

structure JobEnvData extends GateVerdict where
  pendingInit : Bool := false

structure JobEnvEvalResult where
  jobContextData : JsObject JobEnvData
  deferredInitJobs : List MaterializedJob

namespace WorkflowDispatchContext

variable (ctx : WorkflowDispatchContext)

/-- The contexts a job binds, those of the workflow first. -/
def effectiveContextRefs (lockJob : LockJob) : List ContextRef :=
  let own := lockJob.contexts.getD []
  let ownStatic := (own.filter (!·.dynamic)).map (·.value)
  let inherited := (ctx.contexts.getD []).eraseDups.filter (· ∉ ownStatic)
  inherited.map (⟨·, false⟩) ++ own

/-- The names of the contexts of a job, and whether there are names that only an agent can tell. -/
def resolveJobContextNames (lockJob : LockJob) : List JsString × Bool :=
  let refs := ctx.effectiveContextRefs lockJob
  ((refs.filter (!·.dynamic)).map (·.value), refs.any (·.dynamic))

/-- Whether an agent has to tell what the lock file leaves open of the job. -/
def needsInit (mat : MaterializedJob) : Bool :=
  (ctx.resolveJobContextNames mat.lockJob).2 || mat.lockJob.dynamicEnv ||
    mat.lockJob.dynamicConcurrencyGroup || mat.pendingDynamicMatrix = some true

/-- Evaluate a job; `gates` is what the rules of its contexts and its approvals say. -/
def evaluateJobContext (gates : MaterializedJob → GateVerdict) (mat : MaterializedJob) : JobEnvData :=
  if ctx.needsInit mat && ctx.pendingInits then { pendingInit := true }
  else
    let verdict := gates mat
    { verdict with
      pendingInit := (ctx.hasFilter || ctx.deferredPaths) && ctx.pendingInits && !verdict.rejected &&
        !verdict.held }

/-- Evaluate each job, and collect those that get an init job. -/
def evaluateJobContexts (gates : MaterializedJob → GateVerdict) (mats : List MaterializedJob) :
    JobEnvEvalResult :=
  mats.foldl (fun result mat =>
    let jobEnvData := ctx.evaluateJobContext gates mat
    { jobContextData := result.jobContextData.set mat.expandedName jobEnvData
      deferredInitJobs :=
        if jobEnvData.pendingInit then result.deferredInitJobs ++ [mat] else result.deferredInitJobs })
    ⟨JsObject.empty, []⟩

end WorkflowDispatchContext

/-- Whether a job waits for no other one. -/
def isRootJob (lockJob : LockJob) : Bool :=
  !(lockJob.needs.any fun need =>
    match need with
    | .name _ | .entry _ _ => true
    | .group _ _ => false) && (lockJob.dependsOnGroups.getD []).isEmpty

/-! ## Waves -/

structure WavePolicy where
  maxParallel : ℕ
  failFast : Bool

structure WavePlan where
  /-- The children that are held. -/
  held : List JsString
  /-- The policy of each child of a bounded fan-out. -/
  policy : JsObject WavePolicy

namespace FanoutRuntime

variable (rt : FanoutRuntime)

/-- Whether a child comes before another one: by their places in the fan-out, or their names. -/
def childLe (a b : MaterializedJob) : Bool :=
  match a.fanoutIndex, b.fanoutIndex with
  | some i, some j => i ≤ j
  | _, _ => rt.localeLe a.expandedName b.expandedName

def sortChildren (children : List MaterializedJob) : List MaterializedJob :=
  children.insertionSort fun a b => rt.childLe a b

/-- Add the children of a job to a plan: all but the first `maxParallel` are held. -/
def planChildren (plan : WavePlan) (children : List MaterializedJob) : WavePlan :=
  match children.head?.bind (·.lockJob.maxParallel) with
  | none => plan
  | some maxParallel =>
    if children.length ≤ 1 then plan
    else
      let failFast := (children.head?.bind (·.lockJob.failFast)).getD false
      let ordered := rt.sortChildren children
      { held := plan.held ++ (ordered.drop maxParallel).map (·.expandedName)
        policy := ordered.foldl
          (fun policy mat => policy.set mat.expandedName ⟨maxParallel, failFast⟩) plan.policy }

def computeWavePlan (materializedJobs : List MaterializedJob) : WavePlan :=
  let byBase := (materializedJobs.map (·.baseName)).eraseDups.map fun baseName =>
    materializedJobs.filter (·.baseName = baseName)
  byBase.foldl rt.planChildren ⟨[], JsObject.empty⟩

end FanoutRuntime

/-! ## Rows -/

/-- A column that a text goes to, unless it is empty. -/
def column (text : JsString) : Option JsString := if text = [] then none else some text

/-- The row of a job that is to get its id. -/
def pendingRow (jobName : JsString) : ExecutionJob where
  jobId := ""
  jobName
  status := .pending

/-- The row of a job with its place in the fan-out. -/
def variantTrackingFields (mat : MaterializedJob) (row : ExecutionJob) : ExecutionJob :=
  match mat.variantKind with
  | none => row
  | some .host => { row with
      baseJobName := column mat.baseName
      variantLabel := column (mat.host.getD []) }
  | some .matrix => { row with
      baseJobName := column mat.baseName
      variantLabel := column (if mat.variantValues.isSome then variantLabelOf mat else []) }

/-- The row of a job with the policy of its wave. -/
def wavePolicyFields (wavePlan : WavePlan) (name : JsString) (row : ExecutionJob) : ExecutionJob :=
  match wavePlan.policy.get name with
  | none => row
  | some policy => { row with
      waveMaxParallel := some policy.maxParallel
      waveFailFast := some policy.failFast }

/-! ## Tasks -/

/-- A job that is stored until something releases it. -/
structure PendingJobContext where
  mat : MaterializedJob
  /-- Whether other runs are to be started in place of the job. -/
  invoke : Bool := false

def PendingJobContext.jobName (pending : PendingJobContext) : JsString := pending.mat.expandedName

/-- What is done with a job; its row gets an id then. -/
inductive StaticTask
  /-- The row tells that the job failed. -/
  | record (row : ExecutionJob)
  /-- The job is stored, with a placeholder for its row. -/
  | store (pending : PendingJobContext) (row : ExecutionJob)
  /-- The job is handed to the dispatcher, or routed by the coordinator. -/
  | hand (mat : MaterializedJob) (row : ExecutionJob)

/-- What is known of a job by its name. -/
def envDataOf (jobContextData : JsObject JobEnvData) (mat : MaterializedJob) : JobEnvData :=
  (jobContextData.get mat.expandedName).getD {}

/-- The row of a job that is held, or is an invoke gate. -/
def trackedRow (mat : MaterializedJob) : ExecutionJob :=
  variantTrackingFields mat (pendingRow mat.expandedName)

/-- What a coordinator on its own does with a job. -/
def singleOrchTask (wavePlan : WavePlan) (jobContextData : JsObject JobEnvData) (mat : MaterializedJob) :
    Option StaticTask :=
  let envData := envDataOf jobContextData mat
  let row := trackedRow mat
  if envData.rejected then none
  else if envData.pendingInit then none
  else if envData.held then some (.store { mat } row)
  else if mat.lockJob.invoke then some (.store { mat, invoke := true } row)
  else if !isRootJob mat.lockJob then some (.store { mat } row)
  else if mat.expandedName ∈ wavePlan.held then
    some (.store { mat } { wavePolicyFields wavePlan mat.expandedName row with waveGated := true })
  else some (.hand mat (wavePolicyFields wavePlan mat.expandedName row))

/-- What a coordinator that has peers does with the jobs: it routes those that wait for nothing. -/
def clusterTasks (jobContextData : JsObject JobEnvData) (mats : List MaterializedJob) :
    List StaticTask :=
  let env := envDataOf jobContextData
  let held := mats.filter fun mat =>
    (env mat).held && !(env mat).rejected && !(env mat).pendingInit
  let dispatchable := mats.filter fun mat =>
    !(env mat).rejected && !(env mat).held && !(env mat).pendingInit
  let nonGateJobs := dispatchable.filter (!·.lockJob.invoke)
  held.map (fun mat => .store { mat } (trackedRow mat)) ++
    (dispatchable.filter (·.lockJob.invoke)).map
      (fun mat => .store { mat, invoke := true } (trackedRow mat)) ++
    (nonGateJobs.filter fun mat => !isRootJob mat.lockJob).map
      (fun mat => .store { mat } (pendingRow mat.expandedName)) ++
    (nonGateJobs.filter fun mat => isRootJob mat.lockJob).map
      fun mat => .hand mat (pendingRow mat.expandedName)

/-- The rows of the jobs that the rules of their contexts reject. -/
def rejectionTasks (jobContextData : JsObject JobEnvData) (mats : List MaterializedJob) :
    List StaticTask :=
  (mats.filter fun mat =>
    (envDataOf jobContextData mat).rejected && !(envDataOf jobContextData mat).pendingInit).map
      fun mat => .record (trackedRow mat)

/-- What is done with the jobs of a run, in turn. -/
def staticTasks (rt : FanoutRuntime) (jobContextData : JsObject JobEnvData) (hasConnectedPeers : Bool)
    (run : StaticRun) : List StaticTask :=
  rejectionTasks jobContextData run.materializedJobs ++
    (if hasConnectedPeers then clusterTasks jobContextData run.materializedJobs
      else run.materializedJobs.filterMap
        (singleOrchTask (rt.computeWavePlan run.materializedJobs) jobContextData)) ++
    run.matrixFailures.map fun failure => .record (pendingRow failure.jobName)

/-! ## Init jobs -/

/-- What an init job tells. -/
structure InitResult where
  filterPassed : Option Bool := none
  pathsPassed : Option Bool := none
  matrixValues : Option (List MatrixValues) := none

inductive InitDispatchSuppression
  | paths
  | filter
  | gated
  deriving DecidableEq

/-- Why the result of an init job does not lead to a dispatch. -/
def initDispatchSuppression (ctx : WorkflowDispatchContext) (initResult : InitResult)
    (jobEnvData : GateVerdict) : Option InitDispatchSuppression :=
  if initResult.pathsPassed = some false then some .paths
  else if ctx.hasFilter ∧ initResult.filterPassed = some false then some .filter
  else if jobEnvData.rejected || jobEnvData.held then some .gated
  else none

/-- What is done with a job after its init job. -/
def afterInitTask (mat : MaterializedJob) (verdict : GateVerdict) : StaticTask :=
  if verdict.rejected then .record (trackedRow mat)
  else if verdict.held then .store { mat } (trackedRow mat)
  else .hand mat (pendingRow mat.expandedName)

/-- What is done with a job, or the children of its matrix, when its init job is over, and the
fan-out whose edges are to be inserted then. `verdict` is what the gates say of the job,
`childGates` what they say of the children. -/
def initTasks (rt : FanoutRuntime) (ctx : WorkflowDispatchContext) (mat : MaterializedJob)
    (initResult : InitResult) (before verdict : GateVerdict)
    (childGates : MaterializedJob → GateVerdict) : List StaticTask × Option FanoutResult :=
  match initDispatchSuppression ctx initResult before with
  | some .paths | some .filter => ([], none)
  | suppression =>
    if suppression = some .gated ∧ before.rejected then ([.record (trackedRow mat)], none)
    else if verdict.rejected then ([.record (trackedRow mat)], none)
    else
      match mat.pendingDynamicMatrix, initResult.matrixValues with
      | some true, some combos =>
        match rt.materializeResolvedMatrix mat.lockJob combos with
        | .error _ => ([.record (pendingRow mat.baseName)], none)
        | .ok result => (result.jobs.map fun child =>
            -- A job that is held is held child by child.
            afterInitTask child (if verdict.held then verdict else childGates child), some result)
      | _, _ => ([afterInitTask mat verdict], none)

end Kici
