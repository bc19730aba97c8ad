import Kici.Execution.Status
import Kici.Fanout.Expand

/-!
# Materializing the fan-out of jobs

`materializeFanout` makes, of each job of a lock file, the jobs to dispatch: one for
each combination of a static matrix (`materializeMatrix`), and the job itself otherwise.
Children are named after their job and their combination, and get their place in the
fan-out (`assignFanoutPositions`).

Of the jobs there are the fields that the fan-out, the scheduling of needs and the dispatch read.
-/

namespace Kici

open JsObject

/-- The most children of a job. -/
def MAX_FANOUT_JOBS : ℕ := 256

/-- The most combinations a matrix may have before its excludes. -/
def MAX_MATRIX_MATERIALIZATION : ℕ := 100000

/-- The matrix of a job; the values of a static one may be missing. -/
inductive LockMatrix
  | «static» (values : Option Json)
  | dynamic

/-- What a job waits for: a job, or the jobs of a group that is generated as the run goes
on, with the statuses after which it may run. -/
inductive LockNeed
  | name (name : JsString)
  | entry (name : JsString) (runOn : Option (List ExecutionJobStatus))
  | group (group : JsString) (runOn : Option (List ExecutionJobStatus))

/-- A context that a job binds. -/
structure ContextRef where
  value : JsString
  /-- Whether the name is computed by an agent. -/
  dynamic : Bool

structure LockJob where
  name : JsString
  matrix : Option LockMatrix := none
  included : Option (List (JsObject JsString)) := none
  excluded : Option (List (JsObject JsString)) := none
  /-- Whether the job runs on all hosts that match. -/
  runsOnAll : Bool := false
  needs : List LockNeed := []
  dependsOnGroups : Option (List JsString) := none
  contexts : Option (List ContextRef) := none
  dynamicEnv : Bool := false
  dynamicConcurrencyGroup : Bool := false
  /-- Whether the job is an invoke gate, which starts other runs. -/
  invoke : Bool := false
  /-- The most children of the job that run at a time. -/
  maxParallel : Option ℕ := none
  failFast : Option Bool := none
  /-- The credentials that the job declares for its repositories. -/
  gitCredentials : Option (JsObject (JsObject JsString)) := none

inductive VariantKind
  | matrix
  | host

inductive FanoutCause
  | error
  | narrowedEmpty
  deriving DecidableEq

structure FanoutError where
  jobName : JsString
  message : JsString
  cause : FanoutCause := .error

/-- A host that a job may run on. -/
structure ResolvedHostAgent where
  agentId : JsString
  /-- The name of the host, or the id of the agent for want of one. -/
  host : JsString
  labels : List JsString := []
  platform : Option JsString := none
  arch : Option JsString := none
  /-- The orchestrator that the agent is connected to. -/
  connectedInstanceId : Option JsString := none
  /-- Whether a declared host has no agent yet. -/
  needsBringup : Option Bool := none

/-- A job to dispatch. -/
structure MaterializedJob where
  lockJob : LockJob
  baseName : JsString
  expandedName : JsString
  variantKind : Option VariantKind := none
  variantValues : Option MatrixValues := none
  pendingDynamicMatrix : Option Bool := none
  pinnedAgentId : Option JsString := none
  host : Option JsString := none
  agent : Option ResolvedHostAgent := none
  connectedInstanceId : Option (Option JsString) := none
  needsBringup : Option Bool := none
  fanoutIndex : Option ℕ := none
  fanoutTotal : Option ℕ := none

/-- The jobs to dispatch, and the names of the children of each job (a `Map`). -/
structure FanoutResult where
  jobs : List MaterializedJob
  expansionMap : JsObject (List JsString)

/-- A job whose fan-out failed. -/
structure MatrixFailure where
  jobName : JsString
  reason : JsString
  terminalStatus : Option ExecutionJobStatus := none

/-- The jobs of a run, with the names of the children of each. -/
structure StaticRun where
  materializedJobs : List MaterializedJob
  expansionMap : JsObject (List JsString)
  matrixFailures : List MatrixFailure

/-- Merge a map into another. -/
def mergeExpansions (expansionMap other : JsObject (List JsString)) : JsObject (List JsString) :=
  other.created.foldl (fun map e => map.set e.1 e.2) expansionMap

/-- The text in the parentheses of the name of a child. -/
def variantLabelOf (child : MaterializedJob) : JsString :=
  (child.expandedName.drop (child.baseName.length + 2)).dropLast

namespace FanoutRuntime

variable (rt : FanoutRuntime)

/-- Give each of several children its rank by a key, and their number. -/
def assignFanoutPositions (keyOf : MaterializedJob → JsString) (children : List MaterializedJob) :
    List MaterializedJob :=
  if children.length ≤ 1 then children
  else
    -- The children are told apart by their places.
    let sorted := rt.sortByLocale (fun child => keyOf child.1) children.zipIdx
    children.mapIdx fun i child => { child with
      fanoutIndex := some ((sorted.map Prod.snd).idxOf i)
      fanoutTotal := some children.length }

/-- Expand the values of a matrix, if they are not too many. -/
def expandValues (jobName : JsString) (values : Json) : Except FanoutError (List MatrixValues) :=
  match rt.matrixCombinationCount values with
  | .error err => .error { jobName, message := "job '" ++ jobName ++ "': " ++ err.message }
  | .ok rawCount =>
    if MAX_MATRIX_MATERIALIZATION < rawCount then .error {
      jobName
      message := "matrix for job '" ++ jobName ++ "' is too large to expand: " ++
        js (toString rawCount) ++ " raw combinations (max " ++
        js (toString MAX_MATRIX_MATERIALIZATION) ++ ")" }
    else
      match rt.expandMatrix values with
      | .error err =>
        .error { jobName, message := "job '" ++ jobName ++ "': " ++ err.message }
      | .ok expanded => .ok expanded

/-- A combination as `JSON.stringify` takes it. -/
def jsonOf (combo : MatrixValues) : Json := .obj (combo.entries.map fun e => (e.1, .str e.2))

/-- The child of a job for a combination. -/
def matrixChild (lockJob : LockJob) (variantValues : MatrixValues) : MaterializedJob where
  lockJob
  baseName := lockJob.name
  expandedName := formatExpandedJobName lockJob.name variantValues
  variantKind := some .matrix
  variantValues := some variantValues

/-- The children of a job with the values of a static matrix. -/
def materializeMatrix (lockJob : LockJob) (values : Json) :
    Except FanoutError (List MaterializedJob) := do
  let expanded ← rt.expandValues lockJob.name values
  let combos := rt.applyIncludeExclude expanded lockJob.included lockJob.excluded
  if combos.length = 0 then
    throw {
      jobName := lockJob.name
      message := "matrix for job '" ++ lockJob.name ++ "' expands to zero combinations" }
  if MAX_FANOUT_JOBS < combos.length then
    throw {
      jobName := lockJob.name
      message := "matrix for job '" ++ lockJob.name ++ "' expands to " ++
        js (toString combos.length) ++ " combinations (max " ++ js (toString MAX_FANOUT_JOBS) ++ ")" }
  match findDuplicateCombination combos (formatExpandedJobName lockJob.name) with
  | some duplicate => throw {
      jobName := lockJob.name
      message := "matrix for job '" ++ lockJob.name ++ "' produced duplicate combination " ++
        rt.stringify (jsonOf duplicate) ++ " — two children would share the expanded name '" ++
        formatExpandedJobName lockJob.name duplicate ++ "'; de-duplicate the matrix values" }
  | none =>
    return rt.assignFanoutPositions variantLabelOf (combos.map (matrixChild lockJob))

/-- What becomes of a job: its children, or the job itself. -/
def materializeJob (lockJob : LockJob) : Except FanoutError (List MaterializedJob) :=
  match lockJob.matrix with
  | none =>
    .ok [{ lockJob, baseName := lockJob.name, expandedName := lockJob.name }]
  | some .dynamic => .ok [{
      lockJob
      baseName := lockJob.name
      expandedName := lockJob.name
      pendingDynamicMatrix := some true }]
  | some (.static none) => .error {
      jobName := lockJob.name
      message := "static matrix for job '" ++ lockJob.name ++ "' has no values" }
  | some (.static (some values)) =>
    if values.truthy then rt.materializeMatrix lockJob values
    else .error {
      jobName := lockJob.name
      message := "static matrix for job '" ++ lockJob.name ++ "' has no values" }

/-- The jobs that are left, after those in the result. -/
def materializeFrom (result : FanoutResult) : List LockJob → Except FanoutError FanoutResult
  | [] => .ok result
  | lockJob :: staticJobs => do
    let children ← rt.materializeJob lockJob
    materializeFrom {
      jobs := result.jobs ++ children
      expansionMap :=
        result.expansionMap.set lockJob.name (children.map MaterializedJob.expandedName) } staticJobs

/-- Expand the jobs of a lock file into jobs to dispatch. -/
def materializeFanout (staticJobs : List LockJob) : Except FanoutError FanoutResult :=
  rt.materializeFrom ⟨[], empty⟩ staticJobs

/-- The children of a job for the combinations that its matrix function gave. -/
def materializeResolvedMatrix (lockJob : LockJob) (combos : List MatrixValues) :
    Except FanoutError FanoutResult := do
  if combos.length = 0 then
    throw {
      jobName := lockJob.name
      message := "dynamic matrix for job '" ++ lockJob.name ++ "' resolved to zero combinations" }
  if MAX_FANOUT_JOBS < combos.length then
    throw {
      jobName := lockJob.name
      message := "dynamic matrix for job '" ++ lockJob.name ++ "' resolved to " ++
        js (toString combos.length) ++ " combinations (max " ++ js (toString MAX_FANOUT_JOBS) ++ ")" }
  match findDuplicateCombination combos (formatExpandedJobName lockJob.name) with
  | some duplicate => throw {
      jobName := lockJob.name
      message := "dynamic matrix for job '" ++ lockJob.name ++ "' produced duplicate combination " ++
        rt.stringify (jsonOf duplicate) ++ " — two children would share the expanded name '" ++
        formatExpandedJobName lockJob.name duplicate ++
        "'; de-duplicate the values your matrix function returns" }
  | none =>
    let jobs := rt.assignFanoutPositions variantLabelOf (combos.map (matrixChild lockJob))
    return ⟨jobs, empty.set lockJob.name (jobs.map (·.expandedName))⟩

/-- The child of a job for a host. -/
def hostChild (lockJob : LockJob) (agent : ResolvedHostAgent) : MaterializedJob where
  lockJob
  baseName := lockJob.name
  expandedName := lockJob.name ++ " (" ++ agent.host ++ ")"
  variantKind := some .host
  pinnedAgentId := some agent.agentId
  host := some agent.host
  agent := some agent
  connectedInstanceId := some agent.connectedInstanceId
  needsBringup := if agent.needsBringup = some true then some true else none

/-- The children of a job that runs on all hosts. -/
def materializeResolvedHosts (lockJob : LockJob) (agents : List ResolvedHostAgent) (maxHosts : ℕ) :
    Except FanoutError FanoutResult := do
  if agents.length = 0 then
    throw {
      jobName := lockJob.name
      message := "runsOnAll for job '" ++ lockJob.name ++ "' matched zero matching hosts" }
  if maxHosts < agents.length then
    throw {
      jobName := lockJob.name
      message := "runsOnAll for job '" ++ lockJob.name ++ "' matched " ++
        js (toString agents.length) ++ " hosts (max " ++ js (toString maxHosts) ++ ")" }
  let jobs := rt.assignFanoutPositions (fun child => child.pinnedAgentId.getD [])
    (agents.map (hostChild lockJob))
  return ⟨jobs, empty.set lockJob.name (jobs.map (·.expandedName))⟩

/-! ## The jobs of a run -/

/-- Materialize a job; one whose fan-out fails stands for itself, so that jobs that need it have
something to wait for. `hostTargets` are the hosts a job runs on, or why there are none. -/
def materializeStaticJob (hostTargets : LockJob → Except FanoutError (List ResolvedHostAgent))
    (maxFanoutHosts : ℕ) (run : StaticRun) (lockJob : LockJob) : StaticRun :=
  let result :=
    if lockJob.runsOnAll then do
      rt.materializeResolvedHosts lockJob (← hostTargets lockJob) maxFanoutHosts
    else rt.materializeFanout [lockJob]
  match result with
  | .ok result => { run with
      materializedJobs := run.materializedJobs ++ result.jobs
      expansionMap := mergeExpansions run.expansionMap result.expansionMap }
  | .error err => { run with
      expansionMap := run.expansionMap.set lockJob.name [lockJob.name]
      matrixFailures := run.matrixFailures ++ [{
        jobName := lockJob.name
        reason := err.message
        terminalStatus := if err.cause = .narrowedEmpty then some .skipped else none }] }

/-- Materialize each job of a lock file. -/
def materializeStaticJobsSafe (hostTargets : LockJob → Except FanoutError (List ResolvedHostAgent))
    (maxFanoutHosts : ℕ) (staticJobs : List LockJob) : StaticRun :=
  staticJobs.foldl (rt.materializeStaticJob hostTargets maxFanoutHosts) ⟨[], empty, []⟩

end FanoutRuntime

end Kici
