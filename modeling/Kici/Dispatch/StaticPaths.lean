import Kici.Dispatch.Workflow
import Kici.Fanout.Names

/-!
# The two ways to dispatch the jobs of a workflow

A coordinator on its own takes the jobs one by one (`dispatchSingleOrchPath`); one that has peers
sorts them, and routes those that wait for nothing (`clusterRouteRootJobs`). What either does with
a job is a `StaticOutcome`: how the job is gated, what the tracker is told of it
(`DispatchedJob`), and what is queued or stored (`JobInput`).

Every dispatch is accepted here. The second way then knows of no waves, tells the tracker of no
fan-out, and pins no job to an agent: `dispatchStaticJobs_perm_iff` says for which jobs this makes
no difference. `map_task_singleOrch` and `map_task_cluster` say that the outcomes are the tasks
that the dispatch of a workflow is made of.
-/

namespace Kici

open List JsObject StaticTask

variable {wavePlan : WavePlan}

/-! ## Choosing by a key -/

section FilterMap

variable {α β : Type*} {f g : α → Option β} {l : List α}

/-- What two choices make of a list is the same, if the results tell what they are made of, just
when they agree on each element. -/
theorem filterMap_perm_iff (key : β → α) (hf : ∀ a b, f a = some b → key b = a)
    (hg : ∀ a b, g a = some b → key b = a) :
    (l.filterMap f).Perm (l.filterMap g) ↔ ∀ a ∈ l, f a = g a := by
  constructor
  · intro hperm a ha
    ext b
    constructor
    · intro hb
      obtain ⟨a', -, hb'⟩ := mem_filterMap.1 (hperm.mem_iff.1 (mem_filterMap.2 ⟨a, ha, hb⟩))
      rwa [← hf a b hb, hg a' b hb']
    · intro hb
      obtain ⟨a', -, hb'⟩ := mem_filterMap.1 (hperm.mem_iff.2 (mem_filterMap.2 ⟨a, ha, hb⟩))
      rwa [← hg a b hb, hf a' b hb']
  · intro heq
    rw [filterMap_congr heq]

/-- Two choices that are never made together. -/
theorem filterMap_append_perm (h : ∀ a, f a = none ∨ g a = none) :
    (l.filterMap f ++ l.filterMap g).Perm (l.filterMap fun a => f a <|> g a) := by
  induction l with
  | nil => rfl
  | cons a l ih =>
    rcases h a with hnone | hnone
    · cases hga : g a with
      | none => simpa [filterMap_cons, hnone, hga] using ih
      | some b => simpa [filterMap_cons, hnone, hga] using (perm_middle.trans (ih.cons b))
    · cases hfa : f a with
      | none => simpa [filterMap_cons, hnone, hfa] using ih
      | some b => simpa [filterMap_cons, hnone, hfa] using ih.cons b

end FilterMap

/-! ## What is told of a job -/

/-- A job as the tracker is told of it. -/
structure DispatchedJob where
  jobName : JsString
  matrixValues : Option MatrixValues := none
  baseJobName : Option JsString := none
  variantKind : Option VariantKind := none
  variantLabel : Option JsString := none
  waveGated : Bool := false
  waveMaxParallel : Option ℕ := none
  waveFailFast : Option Bool := none
  gitCredentials : Option (JsObject (JsObject JsString)) := none
  /-- Whether the job is an invoke gate. -/
  isGate : Bool := false

namespace DispatchedJob

variable (job : DispatchedJob)

def variantTrackingFields (mat : MaterializedJob) : DispatchedJob :=
  match mat.variantKind with
  | none => job
  | some .host => { job with
      baseJobName := some mat.baseName
      variantKind := some .host
      variantLabel := column (mat.host.getD []) }
  | some .matrix => { job with
      baseJobName := some mat.baseName
      variantKind := some .matrix
      variantLabel := column (if mat.variantValues.isSome then variantLabelOf mat else []) }

def wavePolicyFields (wavePlan : WavePlan) (name : JsString) : DispatchedJob :=
  match wavePlan.policy.get name with
  | none => job
  | some policy => { job with
      waveMaxParallel := some policy.maxParallel
      waveFailFast := some policy.failFast }

def gitCredentialFields (lockJob : LockJob) : DispatchedJob :=
  { job with gitCredentials := lockJob.gitCredentials }

/-- The row that the tracker writes. -/
def row : ExecutionJob where
  jobId := ""
  jobName := job.jobName
  status := .pending
  baseJobName := job.baseJobName.bind column
  variantLabel := job.variantLabel
  waveGated := job.waveGated
  waveMaxParallel := job.waveMaxParallel
  waveFailFast := job.waveFailFast

end DispatchedJob

/-- The input of a job, as far as it names an agent. -/
structure JobInput where
  jobName : JsString
  pinnedAgentId : Option JsString := none

def buildExecutionJobInput (mat : MaterializedJob) : JobInput where
  jobName := mat.expandedName
  pinnedAgentId := mat.pinnedAgentId.bind column

/-- The input that `routeJobs` dispatches: what is routed has no agent. -/
def routeJobInput (mat : MaterializedJob) : JobInput where
  jobName := mat.expandedName

/-- How a job is gated. -/
inductive JobGate
  | dispatched
  | needsGated
  | waveHeld
  | approvalHeld
  | invokeGate
  deriving DecidableEq

/-- What is done with a job. -/
structure StaticOutcome where
  mat : MaterializedJob
  gate : JobGate
  job : DispatchedJob
  jobInput : JobInput

/-! ## Holds and gates -/

/-- What the tracker is told of a job that is no gate. -/
def trackedJob (mat : MaterializedJob) : DispatchedJob :=
  (({ jobName := mat.expandedName, matrixValues := mat.variantValues } :
    DispatchedJob).variantTrackingFields mat).gitCredentialFields mat.lockJob

/-- A job that is held; `stored` tells whether there is something that can release it. -/
def holdJobForApproval (stored : MaterializedJob → Bool) (mat : MaterializedJob) :
    Option StaticOutcome :=
  if stored mat then some {
    mat
    gate := .approvalHeld
    job := trackedJob mat
    jobInput := buildExecutionJobInput mat }
  else none

def registerPendingInvokeGate (mat : MaterializedJob) : StaticOutcome where
  mat
  gate := .invokeGate
  job := ({ jobName := mat.expandedName, isGate := true } : DispatchedJob).variantTrackingFields mat
  jobInput := buildExecutionJobInput mat

/-! ## A coordinator on its own -/

def singleOrchOutcome (stored : MaterializedJob → Bool) (wavePlan : WavePlan)
    (jobContextData : JsObject JobEnvData) (mat : MaterializedJob) : Option StaticOutcome :=
  let envData := envDataOf jobContextData mat
  if envData.rejected then none
  else if envData.pendingInit then none
  else if envData.held then holdJobForApproval stored mat
  else if mat.lockJob.invoke then some (registerPendingInvokeGate mat)
  else if !isRootJob mat.lockJob then some {
    mat
    gate := .needsGated
    job := trackedJob mat
    jobInput := buildExecutionJobInput mat }
  else if mat.expandedName ∈ wavePlan.held then some {
    mat
    gate := .waveHeld
    job := { (trackedJob mat).wavePolicyFields wavePlan mat.expandedName with waveGated := true }
    jobInput := buildExecutionJobInput mat }
  else some {
    mat
    gate := .dispatched
    job := (trackedJob mat).wavePolicyFields wavePlan mat.expandedName
    jobInput := buildExecutionJobInput mat }

def dispatchSingleOrchPath (rt : FanoutRuntime) (stored : MaterializedJob → Bool)
    (jobContextData : JsObject JobEnvData) (mats : List MaterializedJob) : List StaticOutcome :=
  mats.filterMap (singleOrchOutcome stored (rt.computeWavePlan mats) jobContextData)

/-! ## A coordinator with peers -/

/-- What the jobs have, by their names; of two jobs of one name it is the last one's. -/
def byExpandedName {α : Type} (value : MaterializedJob → Option α) (mats : List MaterializedJob) :
    JsObject α :=
  mats.foldl (fun map mj =>
    match value mj with
    | some v => map.set mj.expandedName v
    | none => map) empty

/-- A job that waits for others. -/
def preRegisterNonRootJob (gated : MaterializedJob) : StaticOutcome where
  mat := gated
  gate := .needsGated
  job := { jobName := gated.expandedName, matrixValues := gated.variantValues }
  jobInput := buildExecutionJobInput gated

/-- A job that is routed: what the tracker is told of it is looked up by its name. -/
def routeRootJob (matrixByName : JsObject MatrixValues)
    (gitCredsByName : JsObject (JsObject (JsObject JsString))) (mj : MaterializedJob) :
    StaticOutcome where
  mat := mj
  gate := .dispatched
  job := {
    jobName := mj.expandedName
    matrixValues := matrixByName.get mj.expandedName
    gitCredentials := gitCredsByName.get mj.expandedName }
  jobInput := routeJobInput mj

def clusterRouteRootJobs (rootDispatchableJobs : List MaterializedJob) : List StaticOutcome :=
  rootDispatchableJobs.map (routeRootJob (byExpandedName (·.variantValues) rootDispatchableJobs)
    (byExpandedName (·.lockJob.gitCredentials) rootDispatchableJobs))

/-- The jobs that nothing stops before they are sorted. -/
def dispatchableJobs (jobContextData : JsObject JobEnvData) (mats : List MaterializedJob) :
    List MaterializedJob :=
  mats.filter fun mat => !(envDataOf jobContextData mat).rejected &&
    !(envDataOf jobContextData mat).held &&
    !(envDataOf jobContextData mat).pendingInit

/-- The jobs that are routed. -/
def rootDispatchableJobs (jobContextData : JsObject JobEnvData) (mats : List MaterializedJob) :
    List MaterializedJob :=
  ((dispatchableJobs jobContextData mats).filter (!·.lockJob.invoke)).filter fun mat =>
    isRootJob mat.lockJob

def dispatchClusterPath (stored : MaterializedJob → Bool) (jobContextData : JsObject JobEnvData)
    (mats : List MaterializedJob) : List StaticOutcome :=
  let nonGateJobs := (dispatchableJobs jobContextData mats).filter (!·.lockJob.invoke)
  let held := mats.filter fun mat => (envDataOf jobContextData mat).held &&
    !(envDataOf jobContextData mat).rejected && !(envDataOf jobContextData mat).pendingInit
  held.filterMap (holdJobForApproval stored) ++
    ((dispatchableJobs jobContextData mats).filter (·.lockJob.invoke)).map registerPendingInvokeGate ++
    (nonGateJobs.filter fun mat => !isRootJob mat.lockJob).map preRegisterNonRootJob ++
    clusterRouteRootJobs (rootDispatchableJobs jobContextData mats)

/-- Dispatch the jobs of a workflow, unless the build of its source has failed. -/
def dispatchStaticJobs (rt : FanoutRuntime) (stored : MaterializedJob → Bool) (buildFailed : Bool)
    (hasConnectedPeers : Bool) (jobContextData : JsObject JobEnvData) (mats : List MaterializedJob) :
    List StaticOutcome :=
  if buildFailed then []
  else if hasConnectedPeers then dispatchClusterPath stored jobContextData mats
  else dispatchSingleOrchPath rt stored jobContextData mats

/-! ## The tasks of the dispatch -/

/-- The task of the dispatch that an outcome is the result of. -/
def StaticOutcome.task (outcome : StaticOutcome) : StaticTask :=
  match outcome.gate with
  | .dispatched => .hand outcome.mat outcome.job.row
  | .invokeGate => .store { mat := outcome.mat, invoke := true } outcome.job.row
  | _ => .store { mat := outcome.mat } outcome.job.row

open StaticOutcome

section Tasks

variable {rt : FanoutRuntime} {jobContextData : JsObject JobEnvData} {mats : List MaterializedJob}
  {mat : MaterializedJob} {job : DispatchedJob}

theorem row_variantTrackingFields : (job.variantTrackingFields mat).row = variantTrackingFields
    mat job.row := by
  rw [DispatchedJob.variantTrackingFields, variantTrackingFields]
  cases mat.variantKind with
  | none => rfl
  | some kind => cases kind <;> rfl

theorem row_wavePolicyFields {name : JsString} :
    (job.wavePolicyFields wavePlan name).row = wavePolicyFields wavePlan name job.row := by
  rw [DispatchedJob.wavePolicyFields, wavePolicyFields]
  cases wavePlan.policy.get name <;> rfl

theorem row_trackedJob : (trackedJob mat).row = trackedRow mat :=
  row_variantTrackingFields

theorem task_singleOrchOutcome :
    (singleOrchOutcome (fun _ => true) wavePlan jobContextData mat).map task =
      singleOrchTask wavePlan jobContextData mat := by
  simp only [singleOrchOutcome, singleOrchTask]
  split
  · rfl
  split
  · rfl
  split
  · exact congrArg (fun row => some (store _ row)) row_trackedJob
  split
  · exact congrArg (fun row => some (store _ row)) row_variantTrackingFields
  split
  · exact congrArg (fun row => some (store _ row)) row_trackedJob
  split
  · have hrow : ((trackedJob mat).wavePolicyFields wavePlan mat.expandedName).row =
        wavePolicyFields wavePlan mat.expandedName (trackedRow mat) := by
      rw [row_wavePolicyFields, row_trackedJob]
    exact congrArg (fun row : ExecutionJob => some (store _ { row with waveGated := true })) hrow
  · exact congrArg (fun row => some (hand _ row))
      (row_wavePolicyFields.trans (congrArg _ row_trackedJob))

/-- The outcomes of a coordinator on its own, if there is something to release each job it holds. -/
theorem map_task_singleOrch :
    (dispatchSingleOrchPath rt (fun _ => true) jobContextData mats).map task =
      mats.filterMap (singleOrchTask (rt.computeWavePlan mats) jobContextData) := by
  rw [dispatchSingleOrchPath, map_filterMap]
  exact filterMap_congr fun mat _ => task_singleOrchOutcome

/-- The outcomes of a coordinator with peers. -/
theorem map_task_cluster :
    (dispatchClusterPath (fun _ => true) jobContextData mats).map task =
      clusterTasks jobContextData mats := by
  rw [dispatchClusterPath, clusterTasks, map_append, map_append, map_append, map_filterMap,
    map_map, map_map, clusterRouteRootJobs, map_map]
  congr 3
  · rw [← filterMap_eq_map]
    exact filterMap_congr fun mat _ =>
      congrArg (fun row => some (store { mat } row)) row_trackedJob
  · exact map_congr_left fun mat _ =>
      congrArg (store { mat, invoke := true }) row_variantTrackingFields

end Tasks

/-! ## The same outcomes -/

/-- How a job is gated and registered. -/
structure JobGating where
  mat : MaterializedJob
  gate : JobGate
  jobName : JsString
  baseJobName : Option JsString
  waveMaxParallel : Option ℕ
  waveFailFast : Option Bool
  gitCredentials : Option (JsObject (JsObject JsString))
  pinnedAgentId : Option JsString

def StaticOutcome.gating (outcome : StaticOutcome) : JobGating where
  mat := outcome.mat
  gate := outcome.gate
  jobName := outcome.job.jobName
  baseJobName := outcome.job.baseJobName
  waveMaxParallel := outcome.job.waveMaxParallel
  waveFailFast := outcome.job.waveFailFast
  gitCredentials := outcome.job.gitCredentials
  pinnedAgentId := outcome.jobInput.pinnedAgentId

/-- What the last job of a name has. -/
def lastNamed {α : Type} (value : MaterializedJob → Option α) (mats : List MaterializedJob)
    (name : JsString) : Option α :=
  (mats.filter (·.expandedName = name)).reverse.findSome? value

/-- A job that nothing makes a difference to: it is stopped before the jobs are sorted, or it is an
invoke gate; otherwise it is no child of a fan-out, and
* if it waits for others, it declares no credentials;
* if it does not, it is not part of a wave, and has no agent; and the credentials that are found by
  its name are its own. -/
def GatedAlike (rt : FanoutRuntime) (jobContextData : JsObject JobEnvData) (mats : List MaterializedJob)
    (mat : MaterializedJob) : Prop :=
  (envDataOf jobContextData mat).rejected ∨ (envDataOf jobContextData mat).pendingInit ∨
    (envDataOf jobContextData mat).held ∨ mat.lockJob.invoke ∨
    mat.variantKind = none ∧
      if isRootJob mat.lockJob then
        (rt.computeWavePlan mats).policy.get mat.expandedName = none ∧ mat.pinnedAgentId.getD [] = [] ∧
          lastNamed (·.lockJob.gitCredentials) (rootDispatchableJobs jobContextData mats)
            mat.expandedName =
            mat.lockJob.gitCredentials
      else mat.lockJob.gitCredentials = none

/-- What a coordinator with peers does with a job; `route` is what it does with one that is routed. -/
def clusterOutcome (stored : MaterializedJob → Bool) (jobContextData : JsObject JobEnvData)
    (route : MaterializedJob → StaticOutcome) (mat : MaterializedJob) : Option StaticOutcome :=
  let envData := envDataOf jobContextData mat
  if envData.rejected then none
  else if envData.pendingInit then none
  else if envData.held then holdJobForApproval stored mat
  else if mat.lockJob.invoke then some (registerPendingInvokeGate mat)
  else if !isRootJob mat.lockJob then some (preRegisterNonRootJob mat)
  else some (route mat)

variable {outcome : StaticOutcome}

section Alike

variable {rt : FanoutRuntime} {stored : MaterializedJob → Bool} {jobContextData : JsObject JobEnvData}
  {mats : List MaterializedJob} {mat : MaterializedJob} {name : JsString}

theorem get_byExpandedName {α : Type} {value : MaterializedJob → Option α} :
    (byExpandedName value mats).get name = lastNamed value mats name := by
  rw [byExpandedName, lastNamed]
  induction mats using reverseRecOn with
  | nil => rfl
  | append_singleton mats mat ih =>
    rw [foldl_append, foldl_cons, foldl_nil, filter_append, reverse_append,
      findSome?_append, ← ih]
    by_cases hname : mat.expandedName = name
    · cases hvalue : value mat with
      | none => simp [hname, hvalue]
      | some v => simp [hname, hvalue, get_set]
    · cases hvalue : value mat with
      | none => simp [hname]
      | some v => simp [hname, get_set, Ne.symm hname]

/-- The cluster path does the same with each job, whatever the order. -/
theorem dispatchClusterPath_perm (stored : MaterializedJob → Bool) (jobContextData : JsObject JobEnvData)
    (mats : List MaterializedJob) : (dispatchClusterPath stored jobContextData mats).Perm
    (mats.filterMap (clusterOutcome stored jobContextData
      (routeRootJob (byExpandedName (·.variantValues) (rootDispatchableJobs jobContextData mats))
        (byExpandedName (·.lockJob.gitCredentials) (rootDispatchableJobs jobContextData mats))))) := by
  rw [dispatchClusterPath, clusterRouteRootJobs]
  generalize routeRootJob _ _ = route
  simp only [rootDispatchableJobs, dispatchableJobs, ← filterMap_eq_map, filterMap_filter,
    filter_filter]
  refine (((filterMap_append_perm ?_).append_right _).trans (filterMap_append_perm ?_)).append_right
    _ |>.trans
    ((filterMap_append_perm ?_).trans (.of_eq (filterMap_congr ?_)))
  all_goals
    intro mat
    try rw [clusterOutcome]
    cases (envDataOf jobContextData mat).held <;> cases (envDataOf jobContextData mat).rejected <;>
      cases (envDataOf jobContextData mat).pendingInit <;> cases mat.lockJob.invoke <;>
      cases isRootJob mat.lockJob <;> simp

theorem mat_of_singleOrchOutcome
    (h : singleOrchOutcome stored wavePlan jobContextData mat = some outcome) : outcome.mat = mat := by
  simp only [singleOrchOutcome, holdJobForApproval] at h
  split_ifs at h <;> cases h <;> rfl

theorem mat_of_clusterOutcome {route : MaterializedJob → StaticOutcome}
    (hroute : ∀ mat, (route mat).mat = mat)
    (h : clusterOutcome stored jobContextData route mat = some outcome) : outcome.mat = mat := by
  simp only [clusterOutcome, holdJobForApproval] at h
  split_ifs at h <;> cases h
  all_goals first | rfl | exact hroute mat

theorem foldl_set_ne_none {ordered : List MaterializedJob} {policies : JsObject WavePolicy}
    {p : WavePolicy} (h : policies.get name ≠ none ∨ ∃ mat ∈ ordered, mat.expandedName = name) :
    (ordered.foldl (fun policies mat => policies.set mat.expandedName p) policies).get name ≠ none := by
  induction ordered generalizing policies with
  | nil => simpa using h
  | cons mat ordered ih =>
    refine ih ?_
    rw [get_set]
    split
    · exact .inl (Option.some_ne_none p)
    · next hname =>
      refine h.imp_right fun ⟨mat', hmem, hname'⟩ => ⟨mat', ?_, hname'⟩
      refine (mem_cons.1 hmem).resolve_left ?_
      rintro rfl
      exact hname hname'.symm

/-- A child that is held gets a policy with it. -/
theorem policy_of_held_planChildren {plan : WavePlan} {children : List MaterializedJob}
    (hplan : ∀ name ∈ plan.held, plan.policy.get name ≠ none) :
    ∀ name ∈ (rt.planChildren plan children).held,
    (rt.planChildren plan children).policy.get name ≠ none := by
  intro name h
  rw [FanoutRuntime.planChildren] at h ⊢
  split at h
  · exact hplan name h
  · split at h
    · next hone => simpa only [if_pos hone] using hplan name h
    · next hseveral =>
      simp only [if_neg hseveral]
      refine foldl_set_ne_none ((mem_append.1 h).imp (hplan name) fun hdrop => ?_)
      obtain ⟨mat, hmem, hname⟩ := mem_map.1 hdrop
      exact ⟨mat, mem_of_mem_drop hmem, hname⟩

theorem policy_of_held (h : name ∈ (rt.computeWavePlan mats).held) :
    (rt.computeWavePlan mats).policy.get name ≠ none := by
  have hfold : ∀ (groups : List (List MaterializedJob)) (plan : WavePlan),
      (∀ name ∈ plan.held, plan.policy.get name ≠ none) →
      ∀ name ∈ (groups.foldl rt.planChildren plan).held,
        (groups.foldl rt.planChildren plan).policy.get name ≠ none := by
    intro groups
    induction groups with
    | nil => exact fun _ hplan => hplan
    | cons children groups ih => exact fun _ hplan => ih _ (policy_of_held_planChildren hplan)
  exact hfold _ _ (fun _ hname => absurd hname not_mem_nil) name h

/-! What the tracker is told of a job. -/

theorem trackedJob_eq (mat : MaterializedJob) : ∃ kind label, trackedJob mat = {
    jobName := mat.expandedName
    matrixValues := mat.variantValues
    baseJobName := mat.variantKind.map fun _ => mat.baseName
    variantKind := kind
    variantLabel := label
    gitCredentials := mat.lockJob.gitCredentials } := by
  rw [trackedJob, DispatchedJob.gitCredentialFields, DispatchedJob.variantTrackingFields]
  cases mat.variantKind with
  | none => exact ⟨_, _, rfl⟩
  | some kind => cases kind <;> exact ⟨_, _, rfl⟩

theorem wavePolicyFields_trackedJob (wavePlan : WavePlan) (mat : MaterializedJob) (name : JsString) :
    ∃ kind label, (trackedJob mat).wavePolicyFields wavePlan name = {
      jobName := mat.expandedName
      matrixValues := mat.variantValues
      baseJobName := mat.variantKind.map fun _ => mat.baseName
      variantKind := kind
      variantLabel := label
      waveMaxParallel := (wavePlan.policy.get name).map (·.maxParallel)
      waveFailFast := (wavePlan.policy.get name).map (·.failFast)
      gitCredentials := mat.lockJob.gitCredentials } := by
  obtain ⟨kind, label, hjob⟩ := trackedJob_eq mat
  rw [DispatchedJob.wavePolicyFields, hjob]
  cases wavePlan.policy.get name <;> exact ⟨_, _, rfl⟩

theorem pinnedAgentId_buildExecutionJobInput :
    (buildExecutionJobInput mat).pinnedAgentId = none ↔ mat.pinnedAgentId.getD [] = [] := by
  rw [buildExecutionJobInput]
  cases mat.pinnedAgentId <;> simp [column]

/-- A job is gated and registered alike just when nothing makes a difference to it. -/
theorem gating_eq_iff : ((clusterOutcome stored jobContextData
      (routeRootJob (byExpandedName (·.variantValues) (rootDispatchableJobs jobContextData mats))
        (byExpandedName (·.lockJob.gitCredentials) (rootDispatchableJobs jobContextData mats))) mat).map
        gating =
      (singleOrchOutcome stored (rt.computeWavePlan mats) jobContextData mat).map gating) ↔
    GatedAlike rt jobContextData mats mat := by
  simp only [clusterOutcome, singleOrchOutcome, GatedAlike]
  split
  · next h => simp [h]
  split
  · next h => simp [h]
  split
  · next h => simp [h]
  split
  · next h => simp [h]
  next hrejected hinit hheld hinvoke =>
  simp only [hrejected, hinit, hheld, hinvoke]
  cases hroot : isRootJob mat.lockJob with
  | false =>
    -- Only the place in the fan-out and the credentials are left out.
    obtain ⟨kind, label, hjob⟩ := trackedJob_eq mat
    simp [gating, preRegisterNonRootJob, hjob, eq_comm]
  | true =>
    by_cases hwave : mat.expandedName ∈ (rt.computeWavePlan mats).held
    · simp [hwave, gating, routeRootJob, policy_of_held hwave]
    · obtain ⟨kind, label, hjob⟩ := wavePolicyFields_trackedJob (rt.computeWavePlan mats)
        mat mat.expandedName
      have hpinned : (routeJobInput mat).pinnedAgentId = (buildExecutionJobInput mat).pinnedAgentId ↔
          mat.pinnedAgentId.getD [] = [] := eq_comm.trans pinnedAgentId_buildExecutionJobInput
      simp [hwave, gating, routeRootJob, hjob, get_byExpandedName, hpinned, and_comm]

/-- The two ways to dispatch gate and register the jobs alike just when nothing makes a difference to
any of them, or when there is nothing to dispatch. -/
theorem dispatchStaticJobs_perm_iff (rt : FanoutRuntime) (stored : MaterializedJob → Bool)
    (buildFailed : Bool) (jobContextData : JsObject JobEnvData) (mats : List MaterializedJob) :
    ((dispatchStaticJobs rt stored buildFailed true jobContextData mats).map gating).Perm
        ((dispatchStaticJobs rt stored buildFailed false jobContextData mats).map gating) ↔
      buildFailed ∨ ∀ mat ∈ mats, GatedAlike rt jobContextData mats mat := by
  cases buildFailed with
  | true => exact iff_of_true .rfl (.inl rfl)
  | false =>
    have hcluster := (dispatchClusterPath_perm stored jobContextData mats).map gating
    simp only [dispatchStaticJobs, dispatchSingleOrchPath, if_true, Bool.false_eq_true,
      if_false, false_or]
    rw [hcluster.congr_left, map_filterMap, map_filterMap, filterMap_perm_iff JobGating.mat]
    · exact forall₂_congr fun mat _ => gating_eq_iff
    · intro mat gating hgating
      obtain ⟨outcome, houtcome, rfl⟩ := Option.map_eq_some_iff.1 hgating
      exact mat_of_clusterOutcome (fun _ => rfl) houtcome
    · intro mat gating hgating
      obtain ⟨outcome, houtcome, rfl⟩ := Option.map_eq_some_iff.1 hgating
      exact mat_of_singleOrchOutcome houtcome

end Alike

/-! ## A fan-out that is not held back -/

/-- A job that is to run on one system at a time. -/
def rollingJob : LockJob := { systemsJob "deploy" ["linux", "mac"] with maxParallel := some 1 }

/-- The children of a fan-out that runs one at a time: a coordinator on its own holds the second one
back, one with peers dispatches both. -/
theorem exists_dispatchStaticJobs_ne : ∃ (rt : FanoutRuntime) (mats : List MaterializedJob),
    (rt.materializeFanout [rollingJob]).toOption.map (·.jobs) = some mats ∧
    (dispatchStaticJobs rt (fun _ => true) false false empty mats).map
        (fun outcome => (outcome.job.jobName, outcome.gate)) =
      [(js "deploy (linux)", .dispatched), (js "deploy (mac)", .waveHeld)] ∧
    (dispatchStaticJobs rt (fun _ => true) false true empty mats).map
        (fun outcome => (outcome.job.jobName, outcome.gate)) =
      [(js "deploy (linux)", .dispatched), (js "deploy (mac)", .dispatched)] ∧
    ¬((dispatchStaticJobs rt (fun _ => true) false true empty mats).map gating).Perm
      ((dispatchStaticJobs rt (fun _ => true) false false empty mats).map gating) := by
  refine ⟨lowercaseFanoutRuntime, _, rfl, by decide, by decide, fun hperm => ?_⟩
  have hgates := hperm.map fun gating => (gating.jobName, gating.gate)
  revert hgates
  decide

end Kici
