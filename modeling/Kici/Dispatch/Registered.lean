import Kici.Dispatch.Registration
import Kici.Foundation.Lists

/-!
# No job of a workflow is lost

In the runs in which every hold is stored, no job that is routed has failed in the end, and no job is
routed to a peer after its init job, every job of a workflow is registered under its name when the
last token is dropped, unless its init job told that it is not to run (`accounted_of_released`).

At every point of the dispatch a job is registered, or what is left of the dispatch registers it, or
a task does (`RegistrationState.Settles`):

* the routing loses no job: those that it has to do with are the same after each answer
  (`RouteCall.perm_dispatched`, `RouteCall.perm_rerouted`);
* every job that is not noted at the start is gone through then, or waits for an init job
  (`noted_of_start`);
* what an init job leads to registers its job, or all the children of its matrix
  (`names_resolveInit`).

The tokens are counted by the tasks that hold them (`RegistrationState.Kept.tokens`), so that no
token means that nothing is left to be done.
-/

namespace Kici

open List Option FanoutRuntime InitTask Registration RouteCall StaticPoint Function

variable {children : List MaterializedJob} {jobs : List RegisteredJob} {point' : InitCallPoint}

/-! ## What a step leaves alone -/

theorem RegistrationState.subset_staticNext {d : Registration} {s t : RegistrationState}
    {answer : RegistrationAnswer} {point : StaticPoint} (h : s.staticNext d point answer = some t) :
    t.events = s.events ∧ s.registered ⊆ t.registered ∧ s.inits ⊆ t.inits := by
  unfold staticNext at h
  split at h
  case h_2 | h_3 | h_7 =>
    obtain ⟨-, heq⟩ | ⟨-, heq⟩ := ite_eq_iff.1 h <;> cases heq
    all_goals exact ⟨rfl, List.Subset.refl _, List.Subset.refl _⟩
  case h_5 | h_6 =>
    obtain ⟨call, -, rfl⟩ := map_eq_some_iff.1 h
    exact ⟨rfl, List.Subset.refl _, List.Subset.refl _⟩
  case h_11 =>
    cases h
    exact ⟨rfl, subset_append_left _ _, List.Subset.refl _⟩
  case h_12 =>
    cases h
    exact ⟨rfl, List.Subset.refl _, subset_append_left _ _⟩
  case h_14 => cases h
  all_goals
    cases h
    exact ⟨rfl, List.Subset.refl _, List.Subset.refl _⟩

/-! ## Names -/

namespace RouteCall

variable {call call' : RouteCall} {answer : DispatchResult} {result : RerouteResult} {k : ℕ}

/-- No job is lost in the routing. -/
theorem perm_dispatched (h : call.dispatched answer = some call') :
    call'.jobNames.Perm call.jobNames := by
  obtain ⟨jobs, toReroute, result⟩ := call
  cases jobs with
  | nil => cases h
  | cons job jobs =>
    cases answer <;> cases h <;>
      · simp only [jobNames, map_append, map_cons, map_nil, perm_iff_count, count_append,
          count_cons, count_nil]
        intro name
        omega

theorem perm_rerouted (h : call.rerouted k result = some call') : call'.jobNames.Perm call.jobNames := by
  obtain ⟨jobs, toReroute, routed⟩ := call
  unfold rerouted at h
  split at h
  · next entry hjobs hentry =>
    cases h
    obtain ⟨hk, rfl⟩ := List.getElem?_eq_some_iff.1 hentry
    have hperm : (toReroute[k] :: toReroute.eraseIdx k).Perm toReroute := getElem_cons_eraseIdx_perm hk
    have hnames := hperm.map (·.job.jobName)
    simp only [perm_iff_count, map_cons, count_cons] at hnames
    simp only [jobNames, perm_iff_count, count_append]
    intro name
    have := hnames name
    split <;> simp only [map_append, map_cons, map_nil, count_append, count_cons,
      count_nil] <;> omega
  · cases h

end RouteCall

section Names

variable {job : DispatchedJob} {mat : MaterializedJob} {stored : MaterializedJob → Bool}
  {wavePlan : WavePlan}
  {jobContextData : JsObject JobEnvData} {name : JsString} {outcome : StaticOutcome}

@[simp]
theorem jobName_variantTrackingFields : (job.variantTrackingFields mat).jobName = job.jobName := by
  rw [DispatchedJob.variantTrackingFields]
  split <;> rfl

@[simp]
theorem jobName_wavePolicyFields : (job.wavePolicyFields wavePlan name).jobName = job.jobName := by
  rw [DispatchedJob.wavePolicyFields]
  split <;> rfl

@[simp]
theorem jobName_trackedJob : (trackedJob mat).jobName = mat.expandedName := jobName_variantTrackingFields

/-- A coordinator on its own registers a job under its name. -/
theorem jobName_of_singleOrchOutcome
    (h : singleOrchOutcome stored wavePlan jobContextData mat = some outcome) :
    outcome.job.jobName = mat.expandedName := by
  simp only [singleOrchOutcome, holdJobForApproval] at h
  split_ifs at h <;> cases h <;> simp [registerPendingInvokeGate]

theorem afterInit_jobName (mat : MaterializedJob) (verdict : GateVerdict) :
    (afterInit mat verdict).jobName = mat.expandedName := by
  rw [afterInit]
  split_ifs <;> rfl

end Names

/-! ## Which jobs wait for an init job -/

namespace WorkflowDispatchContext

variable {ctx : WorkflowDispatchContext} {gates : MaterializedJob → GateVerdict}
  {mats : List MaterializedJob} {mat : MaterializedJob}

/-- A job that waits for an init job gets one, or another job of its name does. -/
theorem exists_deferred
    (h : (envDataOf (ctx.evaluateJobContexts gates mats).jobContextData mat).pendingInit) :
    ∃ m ∈ (ctx.evaluateJobContexts gates mats).deferredInitJobs, m.expandedName = mat.expandedName := by
  suffices hfold : ∀ envData,
    (ctx.evaluateJobContexts gates mats).jobContextData.get mat.expandedName = some envData →
      envData.pendingInit →
        ∃ m ∈ (ctx.evaluateJobContexts gates mats).deferredInitJobs, m.expandedName = mat.expandedName by
    rw [envDataOf] at h
    cases hget : (ctx.evaluateJobContexts gates mats).jobContextData.get mat.expandedName with
    | none =>
      rw [hget] at h
      exact absurd h Bool.false_ne_true
    | some envData =>
      rw [hget] at h
      exact hfold envData hget h
  clear h
  rw [evaluateJobContexts]
  induction mats using reverseRecOn with
  | nil => exact fun envData hget => absurd hget.symm (some_ne_none envData)
  | append_singleton mats last ih =>
    rw [foldl_append, foldl_cons, foldl_nil]
    intro envData hget hpending
    rw [JsObject.get_set] at hget
    split at hget
    · next hname =>
      cases hget
      exact ⟨last, by simp [hpending], hname.symm⟩
    · obtain ⟨m, hm, hname⟩ := ih envData hget hpending
      refine ⟨m, ?_, hname⟩
      simp only
      split
      · exact mem_append_left _ hm
      · exact hm

theorem mem_of_deferred (h : mat ∈ (ctx.evaluateJobContexts gates mats).deferredInitJobs) :
    mat ∈ mats := by
  rw [evaluateJobContexts] at h
  induction mats using reverseRecOn with
  | nil => exact h
  | append_singleton mats last ih =>
    rw [foldl_append, foldl_cons, foldl_nil] at h
    simp only at h
    split at h
    · exact mem_append.2 ((mem_append.1 h).imp_left ih)
    · exact mem_append_left _ (ih h)

end WorkflowDispatchContext

/-! ## What the jobs of a workflow come to -/

namespace FanoutRuntime

variable {rt : FanoutRuntime} {hostTargets : LockJob → Except FanoutError (List ResolvedHostAgent)}
  {maxFanoutHosts : ℕ} {staticJobs : List LockJob} {lockJob : LockJob} {run : StaticRun}

/-- A job whose matrix is not known yet is named as it is in the lock file. -/
def NamedAsBase (mat : MaterializedJob) : Prop :=
  mat.pendingDynamicMatrix = some true → mat.baseName = mat.expandedName

/-- Children whose matrix is known are named as they may be. -/
theorem namedAsBase_assignFanoutPositions {keyOf : MaterializedJob → JsString}
    (h : ∀ child ∈ children, child.pendingDynamicMatrix = none) :
    ∀ child ∈ rt.assignFanoutPositions keyOf children, NamedAsBase child := by
  intro child hchild hpending
  have hmap : (rt.assignFanoutPositions keyOf children).map (·.pendingDynamicMatrix) =
      children.map (·.pendingDynamicMatrix) := map_assignFanoutPositions fun _ _ _ => rfl
  have hmem := mem_map_of_mem (f := (·.pendingDynamicMatrix)) hchild
  rw [hmap] at hmem
  obtain ⟨other, hother, heq⟩ := mem_map.1 hmem
  rw [← heq, h other hother] at hpending
  cases hpending

theorem namedAsBase_materializeResolvedHosts {agents : List ResolvedHostAgent} {result : FanoutResult}
    (h : rt.materializeResolvedHosts lockJob agents maxFanoutHosts = .ok result) :
    ∀ mat ∈ result.jobs, NamedAsBase mat := by
  rw [materializeResolvedHosts] at h
  simp only [bind, Except.bind] at h
  split at h
  · cases h
  · split at h
    · cases h
    · cases h
      have hchildren : ∀ child ∈ agents.map (hostChild lockJob), child.pendingDynamicMatrix = none :=
        forall_mem_map.2 fun agent _ => rfl
      simp only
      exact namedAsBase_assignFanoutPositions hchildren

theorem namedAsBase_materializeJob
    (h : rt.materializeJob lockJob = .ok children) : ∀ mat ∈ children, NamedAsBase mat := by
  obtain ⟨-, pending, rfl⟩ | ⟨values, hvalues, hmatrix⟩ := materializeJob_cases h
  · exact forall_mem_singleton.2 fun _ => rfl
  · obtain ⟨-, -, rfl⟩ := materializeMatrix_cases hvalues hmatrix
    refine namedAsBase_assignFanoutPositions fun child hchild => ?_
    obtain ⟨combo, -, rfl⟩ := mem_map.1 hchild
    rfl

theorem namedAsBase_materializeStaticJob (hrun : ∀ mat ∈ run.materializedJobs, NamedAsBase mat) :
    ∀ mat ∈ (rt.materializeStaticJob hostTargets maxFanoutHosts run lockJob).materializedJobs,
    NamedAsBase mat := by
  rw [materializeStaticJob]
  split
  · next result hresult =>
    refine forall_mem_append.2 ⟨hrun, ?_⟩
    split at hresult
    · cases hhosts : hostTargets lockJob with
      | error err =>
        rw [hhosts] at hresult
        cases hresult
      | ok agents =>
        rw [hhosts] at hresult
        exact namedAsBase_materializeResolvedHosts hresult
    · obtain ⟨haccepted, hjobs, -⟩ := materializeFrom_cases hresult
      rw [hjobs, nil_append, flatMap_singleton]
      exact namedAsBase_materializeJob (haccepted lockJob (mem_singleton_self lockJob))
  · exact hrun

theorem namedAsBase_of_mem {mat : MaterializedJob}
    (h : mat ∈ (rt.materializeStaticJobsSafe hostTargets maxFanoutHosts staticJobs).materializedJobs) :
    NamedAsBase mat := by
  suffices hfold : ∀ run : StaticRun, (∀ mat ∈ run.materializedJobs, NamedAsBase mat) →
      ∀ mat ∈ (staticJobs.foldl (rt.materializeStaticJob hostTargets maxFanoutHosts)
        run).materializedJobs,
        NamedAsBase mat from
    hfold _ (fun mat hmem => absurd hmem not_mem_nil) mat h
  clear h
  induction staticJobs with
  | nil => exact fun run hrun => hrun
  | cons lockJob staticJobs ih => exact fun run hrun => ih _ (namedAsBase_materializeStaticJob hrun)

end FanoutRuntime

section Resolve

variable {rt : FanoutRuntime} {ctx : WorkflowDispatchContext} {mat : MaterializedJob}
  {initResult : InitResult}
  {before verdict : GateVerdict} {childGates : MaterializedJob → GateVerdict}

theorem task_afterInit (mat : MaterializedJob) (verdict : GateVerdict) :
    (afterInit mat verdict).task = afterInitTask mat verdict := by
  rw [afterInitTask, afterInit]
  split_ifs <;> rfl

/-- What an init job leads to are the tasks of the dispatch of a run. -/
theorem task_resolveInit (rt : FanoutRuntime) (ctx : WorkflowDispatchContext) (mat : MaterializedJob)
    (initResult : InitResult) (before verdict : GateVerdict)
    (childGates : MaterializedJob → GateVerdict) :
    (resolveInit rt ctx mat initResult before verdict childGates).tasks.map (map task) id =
      initTasks rt ctx mat initResult before verdict childGates := by
  unfold initTasks resolveInit
  rcases initDispatchSuppression ctx initResult before with _ | _ | _ | _
  case some.paths | some.filter => rfl
  all_goals
    dsimp only
    split
    · rfl
    · split
      · rfl
      · unfold dispatchAfterInit
        generalize mat.pendingDynamicMatrix = pending
        rcases pending with _ | _ | _ <;> rcases initResult.matrixValues with _ | combos
        case some.true.some =>
          simp only
          cases rt.materializeResolvedMatrix mat.lockJob combos with
          | error err => rfl
          | ok result => simp [InitOutcome.tasks, task_afterInit, comp_def]
        all_goals simp [InitOutcome.tasks, task_afterInit]

/-- An outcome has a task for the job of the name, or one for each of the children that take its
place. -/
def InitOutcome.Names (jobName : JsString) : InitOutcome → Prop
  | .suppressed => True
  | .single task => task.jobName = jobName
  | .matrix children result => children.map InitTask.jobName = result.jobs.map (·.expandedName)

theorem names_dispatchAfterInit {matrixValues : Option (List MatrixValues)} (hbase : NamedAsBase mat) :
    (dispatchAfterInit rt mat matrixValues verdict childGates).Names mat.expandedName := by
  unfold dispatchAfterInit
  cases hpending : mat.pendingDynamicMatrix with
  | none => exact afterInit_jobName mat verdict
  | some pending =>
    rcases pending with _ | _ <;> rcases matrixValues with _ | combos
    case true.some =>
      simp only
      cases rt.materializeResolvedMatrix mat.lockJob combos with
      | error err => exact hbase hpending
      | ok result => simp [InitOutcome.Names, afterInit_jobName]
    all_goals exact afterInit_jobName mat verdict

theorem names_resolveInit (hbase : NamedAsBase mat) :
    (resolveInit rt ctx mat initResult before verdict childGates).Names mat.expandedName := by
  unfold resolveInit
  rcases initDispatchSuppression ctx initResult before with _ | _ | _ | _
  case some.paths | some.filter => trivial
  all_goals
    dsimp only
    split_ifs
    all_goals first | rfl | exact names_dispatchAfterInit hbase

end Resolve

/-! ## The jobs at the start -/

namespace Registration

variable {d : Registration} {mat : MaterializedJob}

/-- The holds of the jobs of the workflow are stored. -/
def HoldsStored (d : Registration) : Prop := ∀ mat ∈ d.run.materializedJobs,
  (envDataOf d.jobContextData mat).held = true → (envDataOf d.jobContextData mat).rejected = false →
    (envDataOf d.jobContextData mat).pendingInit = false → d.stored mat = true

/-- Another task is to register a job of the name. -/
def Deferred (d : Registration) (jobName : JsString) : Prop :=
  ∃ m ∈ d.evalResult.deferredInitJobs, m.expandedName = jobName

theorem mem_of_deferredInitJobs (h : mat ∈ d.evalResult.deferredInitJobs) :
    mat ∈ d.run.materializedJobs :=
  WorkflowDispatchContext.mem_of_deferred h

/-- A job is rejected, or waits for an init job, or nothing has stopped it yet. -/
theorem rejected_or_deferred (d : Registration) {mat : MaterializedJob}
    (hmat : mat ∈ d.run.materializedJobs) :
    mat.expandedName ∈ d.contextRuleRejections.map (·.jobName) ∨ d.Deferred mat.expandedName ∨
      (envDataOf d.jobContextData mat).rejected = false ∧
      (envDataOf d.jobContextData mat).pendingInit = false := by
  cases hpending : (envDataOf d.jobContextData mat).pendingInit with
  | true => exact .inr (.inl (WorkflowDispatchContext.exists_deferred hpending))
  | false =>
    cases hrejected : (envDataOf d.jobContextData mat).rejected with
    | false => exact .inr (.inr ⟨rfl, rfl⟩)
    | true =>
      refine .inl ?_
      rw [contextRuleRejections, List.map_map]
      refine List.mem_map.2 ⟨mat, mem_filter.2 ⟨hmat, by simp [hrejected, hpending]⟩, ?_⟩
      simp

section

variable (hstored : d.HoldsStored)
  (hmat : mat ∈ d.run.materializedJobs)
  (hrejected : (envDataOf d.jobContextData mat).rejected = false)
  (hpending : (envDataOf d.jobContextData mat).pendingInit = false)
include hstored hmat hrejected hpending

/-- What a coordinator on its own does with a job that nothing has stopped. -/
theorem exists_singleOrchOutcome :
    mat.expandedName ∈ (dispatchSingleOrchPath d.rt d.stored d.jobContextData d.run.materializedJobs).map
      (·.job.jobName) := by
  obtain ⟨outcome, houtcome⟩ : ∃ outcome,
    singleOrchOutcome d.stored (d.rt.computeWavePlan d.run.materializedJobs)
      d.jobContextData mat = some outcome := by
    simp only [singleOrchOutcome, hrejected, hpending, Bool.false_eq_true, if_false]
    split
    · next hheld => exact
        ⟨_, by rw [holdJobForApproval, if_pos (hstored mat hmat hheld hrejected hpending)]⟩
    · split_ifs <;> exact ⟨_, rfl⟩
  exact mem_map.2 ⟨outcome, mem_filterMap.2 ⟨mat, hmat, houtcome⟩,
    jobName_of_singleOrchOutcome houtcome⟩

/-- What a coordinator with peers does with it. -/
theorem gated_or_routed :
    mat.expandedName ∈ d.gatedJobs.map (·.jobName) ∨ mat ∈ d.routedJobs := by
  have hgated : ∀ outcome ∈ dispatchClusterPath d.stored d.jobContextData d.run.materializedJobs,
      outcome.gate ≠ .dispatched → outcome.job.jobName = mat.expandedName →
        mat.expandedName ∈ d.gatedJobs.map (·.jobName) := by
    intro outcome houtcome hgate hname
    rw [gatedJobs, List.map_map]
    exact List.mem_map.2 ⟨outcome, mem_filter.2 ⟨houtcome, decide_eq_true hgate⟩, hname⟩
  simp only [dispatchClusterPath, mem_append] at hgated
  have hdispatchable : (envDataOf d.jobContextData mat).held = false →
      mat ∈ dispatchableJobs d.jobContextData d.run.materializedJobs := fun hheld =>
    mem_filter.2 ⟨hmat, by simp [hheld, hrejected, hpending]⟩
  cases hheld : (envDataOf d.jobContextData mat).held with
  | true =>
    have hhold : holdJobForApproval d.stored mat = some ⟨mat, .approvalHeld, trackedJob mat,
        buildExecutionJobInput mat⟩ := if_pos (hstored mat hmat hheld hrejected hpending)
    refine .inl (hgated _ (.inl (.inl (.inl (mem_filterMap.2 ⟨mat, mem_filter.2 ⟨hmat, ?_⟩, hhold⟩))))
      (fun heq => JobGate.noConfusion heq) jobName_trackedJob)
    simp [hheld, hrejected, hpending]
  | false =>
    cases hinvoke : mat.lockJob.invoke with
    | true =>
      exact .inl (hgated _
        (.inl (.inl (.inr (mem_map.2 ⟨mat, mem_filter.2 ⟨hdispatchable hheld, hinvoke⟩,
        rfl⟩)))) (fun heq => JobGate.noConfusion heq) jobName_variantTrackingFields)
    | false =>
      have hnonGate : mat ∈ (dispatchableJobs d.jobContextData d.run.materializedJobs).filter
        (!·.lockJob.invoke) :=
        mem_filter.2 ⟨hdispatchable hheld, by simp [hinvoke]⟩
      cases hroot : isRootJob mat.lockJob with
      | true => exact .inr (mem_filter.2 ⟨hnonGate, hroot⟩)
      | false =>
        exact .inl (hgated _ (.inl (.inr (mem_map.2 ⟨mat, mem_filter.2 ⟨hnonGate, by simp [hroot]⟩,
          rfl⟩))) (fun heq => JobGate.noConfusion heq) rfl)

end

end Registration

/-! ## Where a job is -/

/-- The names of the jobs that a task is to register. -/
def InitCallPoint.jobNames : InitCallPoint → List JsString
  | .tasks todo => todo.map jobName
  | .route _ call todo => call.jobNames ++ todo.map jobName
  | .dispatch | .track | .release => []

/-- The task has not got its result yet. -/
def InitCallPoint.waits : InitCallPoint → Bool
  | .dispatch | .track => true
  | _ => false

namespace StaticPoint

/-- The names of the jobs that the dispatch goes through. -/
def jobNames (d : Registration) : StaticPoint → List JsString
  | .start => d.run.materializedJobs.map (·.expandedName)
  | .singleOrch todo => todo.map (·.job.jobName)
  | .route call => call.jobNames
  | .fallback todo => todo.map (·.jobName)
  | .recordRunStart | .startDeferredPhases | .release | .done => []

/-- The jobs that are noted are still to be registered. -/
def records : StaticPoint → Bool
  | .start | .singleOrch _ | .route _ | .fallback _ | .recordRunStart => true
  | .startDeferredPhases | .release | .done => false

/-- The tasks are still to be started. -/
def defers : StaticPoint → Bool
  | .release | .done => false
  | _ => true

/-- The token of the dispatch is held. -/
def holdsToken : StaticPoint → Bool
  | .start | .done => false
  | _ => true

end StaticPoint

section Start

variable (d : Registration) (hasConnectedPeers : Bool)

@[simp]
theorem startPoint_records : (d.startPoint hasConnectedPeers).records := by
  rw [startPoint]
  split_ifs <;> rfl

@[simp]
theorem startPoint_defers : (d.startPoint hasConnectedPeers).defers := by
  rw [startPoint]
  split_ifs <;> rfl

@[simp]
theorem startPoint_holdsToken : (d.startPoint hasConnectedPeers).holdsToken := by
  rw [startPoint]
  split_ifs <;> rfl

/-- Every job that no other task is to register is noted at the start, or gone through then. -/
theorem noted_of_start (hstored : d.HoldsStored) {mat : MaterializedJob}
    (hmat : mat ∈ d.run.materializedJobs) :
    mat.expandedName ∈ (d.contextRuleRejections ++ if hasConnectedPeers then d.gatedJobs else []).map
    (·.jobName) ∨
      mat.expandedName ∈ (d.startPoint hasConnectedPeers).jobNames d ∨ d.Deferred mat.expandedName := by
  rw [map_append, mem_append]
  rcases d.rejected_or_deferred hmat with hreject | hdeferred | ⟨hrejected, hpending⟩
  · exact .inl (.inl hreject)
  · exact .inr (.inr hdeferred)
  · cases hasConnectedPeers with
    | false =>
      exact .inr (.inl (exists_singleOrchOutcome hstored hmat hrejected hpending))
    | true =>
      rcases gated_or_routed hstored hmat hrejected hpending with hgated | hrouted
      · exact .inl (.inr hgated)
      · have hroute : d.startPoint true = .route { jobs := d.routedJobs.map routeJobInput } := by
          rw [startPoint, if_pos rfl, if_neg (ne_nil_of_mem hrouted)]
        refine .inr (.inl ?_)
        rw [hroute, StaticPoint.jobNames, RouteCall.jobNames, List.map_map]
        exact mem_append_left _ (mem_append_left _ (List.mem_map.2 ⟨mat, hrouted, rfl⟩))

end Start

namespace RegistrationState

variable {d : Registration} {s t : RegistrationState} {mat : MaterializedJob} {name : JsString}
  {answer : RegistrationAnswer} {point : InitCallPoint} {next : Option InitCallPoint}
    {call : InitCall} {k : ℕ}

/-- A job is registered, or a task is to register it. -/
def Tasked (s : RegistrationState) (jobName : JsString) : Prop :=
  s.Registered jobName ∨ ∃ call ∈ s.inits, jobName ∈ call.point.jobNames

/-- A task waits for the init job of a job. -/
def Awaits (s : RegistrationState) (jobName : JsString) : Prop :=
  ∃ call ∈ s.inits, call.point.waits = true ∧ call.mat.expandedName = jobName

/-- The dispatch is to register a job, or to start a task that does. -/
def Owes (d : Registration) (s : RegistrationState) (jobName : JsString) : Prop :=
  jobName ∈ s.point.jobNames d ∨ s.point.records = true ∧ jobName ∈ s.dispatchedJobs.map (·.jobName) ∨
    s.point.defers = true ∧ d.Deferred jobName

/-- A job is not lost. -/
def Settles (d : Registration) (s : RegistrationState) (jobName : JsString) : Prop :=
  s.Tasked jobName ∨ s.Owes d jobName ∨ s.Awaits jobName ∨ .suppressed jobName ∈ s.events ∨
    ∃ children, .expanded jobName children ∈ s.events ∧ ∀ child ∈ children, s.Tasked child

/-- What every step keeps. -/
structure Kept (d : Registration) (s : RegistrationState) : Prop where
  routed : ∀ call, s.point = .route call → call.jobNames.Perm (d.routedJobs.map (·.expandedName))
  mats : ∀ call ∈ s.inits, call.mat ∈ d.run.materializedJobs
  tokens : s.pendingJobRegistrations = (if s.point.holdsToken then d.windowTokens else 0) +
    s.inits.length
  settled : ∀ mat ∈ d.run.materializedJobs, s.Settles d mat.expandedName

/-! ## A step of the dispatch -/

theorem registered_mono (h : s.registered ⊆ t.registered) (hname : s.Registered name) :
    t.Registered name :=
  hname.imp fun _ hjob => ⟨h hjob.1, hjob.2⟩

theorem tokens_staticNext (h : s.staticNext d s.point answer = some t)
    (htokens : s.pendingJobRegistrations = (if s.point.holdsToken then d.windowTokens else 0) +
      s.inits.length) :
    t.pendingJobRegistrations = (if t.point.holdsToken then d.windowTokens else 0) + t.inits.length := by
  generalize hpoint : s.point = point at h htokens
  unfold staticNext at h
  split at h
  case h_1 =>
    cases h
    simp only [startPoint_holdsToken, if_true]
    rw [htokens]
    simp [holdsToken, Nat.add_comm]
  case h_2 | h_3 | h_7 =>
    obtain ⟨-, heq⟩ | ⟨-, heq⟩ := ite_eq_iff.1 h <;> cases heq
    all_goals exact htokens
  case h_5 | h_6 =>
    obtain ⟨call, -, rfl⟩ := map_eq_some_iff.1 h
    exact htokens
  case h_12 =>
    cases h
    rw [length_append, length_map, ← Nat.add_assoc]
    exact congrArg (· + d.evalResult.deferredInitJobs.length) htokens
  case h_13 =>
    cases h
    simp only [holdsToken, if_true] at htokens
    simp only [holdsToken, Bool.false_eq_true, if_false]
    omega
  case h_14 => cases h
  all_goals
    cases h
    exact htokens

theorem routed_staticNext (h : s.staticNext d s.point answer = some t)
    (hrouted : ∀ call, s.point = .route call → call.jobNames.Perm (d.routedJobs.map (·.expandedName))) :
    ∀ call, t.point = .route call → call.jobNames.Perm (d.routedJobs.map (·.expandedName)) := by
  generalize hpoint : s.point = point at h hrouted
  unfold staticNext at h
  split at h
  case h_1 =>
    cases h
    intro call hcall
    simp only [startPoint] at hcall
    split_ifs at hcall
    cases hcall
    simp [RouteCall.jobNames, routeJobInput, comp_def]
  case h_2 | h_3 | h_7 =>
    obtain ⟨-, heq⟩ | ⟨-, heq⟩ := ite_eq_iff.1 h <;> cases heq
    all_goals exact fun call hcall => StaticPoint.noConfusion hcall
  case h_5 =>
    obtain ⟨call, hcall, rfl⟩ := map_eq_some_iff.1 h
    rintro _ ⟨⟩
    exact (perm_dispatched hcall).trans (hrouted _ rfl)
  case h_6 =>
    obtain ⟨call, hcall, rfl⟩ := map_eq_some_iff.1 h
    rintro _ ⟨⟩
    exact (perm_rerouted hcall).trans (hrouted _ rfl)
  case h_14 => cases h
  all_goals
    cases h
    exact fun call hcall => StaticPoint.noConfusion hcall

/-- The head of what the dispatch goes through is noted. -/
theorem owes_push {job : DispatchedJob} {jobId : RegisteredId} {point : StaticPoint}
    (hrecords : point.records) (hdefers : point.defers)
    (h : (name = job.jobName ∨ name ∈ point.jobNames d) ∨ name ∈ s.dispatchedJobs.map (·.jobName) ∨
      d.Deferred name) : Owes d { s.push job jobId with point } name := by
  rcases h with (rfl | htodo) | hold | hdeferred
  · exact .inr (.inl ⟨hrecords, by simp [push]⟩)
  · exact .inl htodo
  · refine .inr (.inl ⟨hrecords, ?_⟩)
    rw [push, map_append]
    exact mem_append_left _ hold
  · exact .inr (.inr ⟨hdefers, hdeferred⟩)

/-- What the dispatch owes it still owes after a step, or has registered, or left to a task. -/
theorem owes_staticNext (h : s.staticNext d s.point answer = some t)
    (hok : s.point.keepsJobs d answer)
    (hrouted : ∀ call, s.point = .route call → call.jobNames.Perm (d.routedJobs.map (·.expandedName)))
    (hname : s.Owes d name) : t.Owes d name ∨ t.Registered name ∨ t.Awaits name := by
  unfold Owes at hname
  generalize hpoint : s.point = point at h hrouted hok hname
  -- A job that is at the head, or is owed for another reason.
  have hhead : ∀ {α : Type} {f : α → JsString} {a : α} {todo : List α} {records defers : Bool},
      name ∈ (a :: todo).map f ∨ records ∧ name ∈ s.dispatchedJobs.map (·.jobName) ∨
        defers ∧ d.Deferred name →
      (name = f a ∨ name ∈ todo.map f) ∨ name ∈ s.dispatchedJobs.map (·.jobName) ∨ d.Deferred name := by
    intro α f a todo records defers hmem
    rw [map_cons, mem_cons] at hmem
    exact hmem.imp_right (Or.imp And.right And.right)
  unfold staticNext at h
  split at h
  case h_1 hasConnectedPeers =>
    cases h
    have hstored : d.HoldsStored := by
      intro mat hmat hheld hrejected hpending
      simpa [hheld, hrejected, hpending] using all_eq_true.1 hok mat hmat
    have hnoted : ∀ job : JsString, job ∈ s.dispatchedJobs.map (·.jobName) ∨
      job ∈ (d.contextRuleRejections ++
        if hasConnectedPeers then d.gatedJobs else []).map (·.jobName) →
        job ∈ (s.dispatchedJobs ++ d.contextRuleRejections ++
          if hasConnectedPeers then d.gatedJobs else []).map (·.jobName) := by
      intro job hjob
      rw [append_assoc, map_append]
      exact mem_append.2 hjob
    refine .inl ?_
    rcases hname with hmats | ⟨-, hold⟩ | ⟨-, hdeferred⟩
    · obtain ⟨mat, hmat, rfl⟩ := mem_map.1 hmats
      rcases noted_of_start d hasConnectedPeers hstored hmat with hnew | htodo | hdeferred
      · exact .inr (.inl ⟨startPoint_records d _, hnoted _ (.inr hnew)⟩)
      · exact .inl htodo
      · exact .inr (.inr ⟨startPoint_defers d _, hdeferred⟩)
    · exact .inr (.inl ⟨startPoint_records d _, hnoted _ (.inl hold)⟩)
    · exact .inr (.inr ⟨startPoint_defers d _, hdeferred⟩)
  case h_2 =>
    obtain ⟨-, heq⟩ | ⟨-, heq⟩ := ite_eq_iff.1 h <;> cases heq
    exact .inl (owes_push rfl rfl
      (hhead (f := fun outcome : StaticOutcome => outcome.job.jobName) hname))
  case h_3 =>
    obtain ⟨-, heq⟩ := ite_none_right_eq_some.1 h
    cases heq
    exact .inl (owes_push rfl rfl
      (hhead (f := fun outcome : StaticOutcome => outcome.job.jobName) hname))
  case h_4 =>
    cases h
    exact .inl (hname.imp_left fun hmem => absurd hmem not_mem_nil)
  case h_5 =>
    obtain ⟨call, hcall, rfl⟩ := map_eq_some_iff.1 h
    exact .inl (hname.imp_left (perm_dispatched hcall).mem_iff.2)
  case h_6 =>
    obtain ⟨call, hcall, rfl⟩ := map_eq_some_iff.1 h
    exact .inl (hname.imp_left (perm_rerouted hcall).mem_iff.2)
  case h_7 call =>
    obtain ⟨hover, heq⟩ := ite_none_right_eq_some.1 h
    cases heq
    obtain ⟨hjobs, htoReroute⟩ := Bool.and_eq_true_iff.1 hover
    rw [List.isEmpty_iff] at hjobs htoReroute
    have hfailed : call.result.failedJobs = [] := List.isEmpty_iff.1 hok
    refine .inl (hname.elim (fun hcall => .inr (.inl ⟨rfl, ?_⟩)) fun hold =>
      .inr (hold.imp_left fun hold => ?_))
    · rw [StaticPoint.jobNames, RouteCall.jobNames, hjobs, htoReroute, hfailed] at hcall
      rw [map_append, List.map_map]
      refine mem_append_right _ ?_
      simpa [routedJob, comp_def] using hcall
    · refine ⟨rfl, ?_⟩
      rw [map_append]
      exact mem_append_left _ hold.2
  case h_8 call =>
    cases h
    refine .inl (hname.imp_left fun hcall => ?_)
    rw [StaticPoint.jobNames, List.map_map]
    exact (hrouted call rfl).mem_iff.1 hcall
  case h_9 =>
    cases h
    exact .inl (owes_push rfl rfl (hhead hname))
  case h_10 =>
    cases h
    exact .inl (hname.imp_left fun hmem => absurd hmem not_mem_nil)
  case h_11 =>
    cases h
    rcases hname with hmem | ⟨-, hnoted⟩ | hdeferred
    · exact absurd hmem not_mem_nil
    · obtain ⟨job, hjob, rfl⟩ := mem_map.1 hnoted
      exact .inr (.inl ⟨job, mem_append_right _ (mem_append_left _ hjob), rfl⟩)
    · exact .inl (.inr (.inr hdeferred))
  case h_12 =>
    cases h
    rcases hname with hmem | ⟨hfalse, -⟩ | ⟨-, m, hm, rfl⟩
    · exact absurd hmem not_mem_nil
    · exact absurd hfalse Bool.false_ne_true
    · exact .inr (.inr ⟨{ mat := m }, mem_append_right _ (mem_map_of_mem hm), rfl, rfl⟩)
  case h_13 =>
    cases h
    rcases hname with hmem | ⟨hfalse, -⟩ | ⟨hfalse, -⟩
    · exact absurd hmem not_mem_nil
    all_goals exact absurd hfalse Bool.false_ne_true
  case h_14 => cases h

theorem Tasked.mono (hregistered : s.registered ⊆ t.registered) (hinits : s.inits ⊆ t.inits)
    (h : s.Tasked name) : t.Tasked name :=
  h.imp (registered_mono hregistered) fun ⟨call, hcall, hname⟩ => ⟨call, hinits hcall, hname⟩

/-- The tasks that are started are about jobs of the workflow. -/
theorem mats_staticNext {point : StaticPoint} (h : s.staticNext d point answer = some t)
    (hmats : ∀ call ∈ s.inits, call.mat ∈ d.run.materializedJobs) :
    ∀ call ∈ t.inits, call.mat ∈ d.run.materializedJobs := by
  unfold staticNext at h
  split at h
  case h_2 | h_3 | h_7 =>
    obtain ⟨-, heq⟩ | ⟨-, heq⟩ := ite_eq_iff.1 h <;> cases heq
    all_goals exact hmats
  case h_5 | h_6 =>
    obtain ⟨call, -, rfl⟩ := map_eq_some_iff.1 h
    exact hmats
  case h_12 =>
    cases h
    refine forall_mem_append.2 ⟨hmats, forall_mem_map.2 fun mat hmat => ?_⟩
    exact mem_of_deferredInitJobs hmat
  case h_14 => cases h
  all_goals
    cases h
    exact hmats

theorem Kept.static (h : s.Kept d) (hok : s.point.keepsJobs d answer)
    (hstep : s.staticNext d s.point answer = some t) : t.Kept d where
  routed := routed_staticNext hstep h.routed
  mats := mats_staticNext hstep h.mats
  tokens := tokens_staticNext hstep h.tokens
  settled mat hmat := by
    obtain ⟨hevents, hregistered, hinits⟩ := subset_staticNext hstep
    rcases h.settled mat hmat with htasked | howes | hawaits | hsuppressed |
      ⟨children, hexpanded, hchildren⟩
    · exact .inl (htasked.mono hregistered hinits)
    · rcases owes_staticNext hstep hok h.routed howes with howes | hdone | hawaits
      · exact .inr (.inl howes)
      · exact .inl (.inl hdone)
      · exact .inr (.inr (.inl hawaits))
    · obtain ⟨call, hcall, hwaits⟩ := hawaits
      exact .inr (.inr (.inl ⟨call, hinits hcall, hwaits⟩))
    · exact .inr (.inr (.inr (.inl (hevents ▸ hsuppressed))))
    · refine .inr (.inr (.inr (.inr ⟨children, hevents ▸ hexpanded, fun child hchild => ?_⟩)))
      exact (hchildren child hchild).mono hregistered hinits

/-! ## A step of a task -/

/-- What a step of a task does. -/
structure InitStep (s t : RegistrationState) (jobName : JsString) (now : InitCallPoint)
    (next : Option InitCallPoint) : Prop where
  point : t.point = s.point
  dispatchedJobs : t.dispatchedJobs = s.dispatchedJobs
  inits : t.inits = s.inits
  registered : s.registered ⊆ t.registered
  events : s.events ⊆ t.events
  tokens : t.pendingJobRegistrations = s.pendingJobRegistrations - (if next = none then 1 else 0)
  names : ∀ name ∈ now.jobNames, t.Registered name ∨ ∃ point' ∈ next, name ∈ point'.jobNames
  waits : now.waits = true → t.Registered jobName ∨
    (∃ point' ∈ next, point'.waits = true ∨ jobName ∈ point'.jobNames) ∨ .suppressed jobName ∈ t.events ∨
      ∃ children, .expanded jobName children ∈ t.events ∧ ∃ point' ∈ next, ∀ child ∈ children,
        child ∈ point'.jobNames

/-- A step that registers jobs. -/
theorem initStep_addJobsToRun
    (hnames : ∀ name ∈ point.jobNames, name ∈ jobs.map (·.jobName) ∨ name ∈ point'.jobNames)
    (hwaits : point.waits → name ∈ jobs.map (·.jobName)) :
    InitStep s (s.addJobsToRun jobs) name point (some point') := by
  have hregistered : ∀ {name}, name ∈ jobs.map (·.jobName) → (s.addJobsToRun jobs).Registered name := by
    intro name hname
    obtain ⟨job, hjob, rfl⟩ := mem_map.1 hname
    exact ⟨job, mem_append_right _ hjob, rfl⟩
  exact {
    point := rfl
    dispatchedJobs := rfl
    inits := rfl
    registered := subset_append_left _ _
    events := List.Subset.refl _
    tokens := rfl
    names := fun name hname => (hnames name hname).imp hregistered fun hmem => ⟨point', rfl, hmem⟩
    waits := fun hpoint => .inl (hregistered (hwaits hpoint)) }

/-- A step that only goes on. -/
theorem initStep_goesOn (hnames : ∀ name ∈ point.jobNames, name ∈ point'.jobNames)
    (hwaits : point.waits → point'.waits) : InitStep s s name point (some point') where
  point := rfl
  dispatchedJobs := rfl
  inits := rfl
  registered := List.Subset.refl _
  events := List.Subset.refl _
  tokens := rfl
  names name hname := .inr ⟨point', rfl, hnames name hname⟩
  waits hpoint := .inr (.inl ⟨point', rfl, .inl (hwaits hpoint)⟩)

theorem exists_note (s : RegistrationState) (jobName : JsString) (outcome : InitOutcome) :
    ∃ events, s.note jobName outcome = { s with events := s.events ++ events } := by
  cases outcome with
  | suppressed | matrix => exact ⟨_, rfl⟩
  | single task => exact ⟨[], by rw [note, append_nil]⟩

/-- The result of an init job has come. -/
theorem initStep_note {outcome : InitOutcome} (hnames : outcome.Names name) :
    InitStep s (s.note name outcome) name .track (some (.tasks outcome.tasks.1)) := by
  obtain ⟨events, hnote⟩ := exists_note s name outcome
  refine {
    point := by rw [hnote]
    dispatchedJobs := by rw [hnote]
    inits := by rw [hnote]
    registered := by rw [hnote]; exact List.Subset.refl _
    events := by rw [hnote]; exact subset_append_left _ _
    tokens := by rw [hnote]; rfl
    names := nofun
    waits := fun _ => .inr ?_ }
  cases outcome with
  | suppressed => exact .inr (.inl (mem_append_right _ (mem_singleton_self _)))
  | single task => exact .inl ⟨_, rfl, .inr (mem_singleton.2 hnames.symm)⟩
  | matrix children result =>
    have hnames : children.map InitTask.jobName = result.jobs.map (·.expandedName) := hnames
    refine .inr (.inr ⟨_, mem_append_right _ (mem_singleton_self _), _, rfl, fun child hchild => ?_⟩)
    show child ∈ children.map jobName
    rwa [hnames]

/-- The head of what a task goes through is registered. -/
theorem initStep_head {task : InitTask} {todo : List InitTask}
    (hhead : task.jobName ∈ jobs.map (·.jobName)) :
    InitStep s (s.addJobsToRun jobs) name (.tasks (task :: todo)) (some (.tasks todo)) := by
  refine initStep_addJobsToRun (fun job hjob => ?_) fun hwaits => absurd hwaits Bool.false_ne_true
  rcases mem_cons.1 hjob with rfl | htodo
  · exact .inl hhead
  · exact .inr htodo

/-- A step of a task loses no job. -/
theorem initStep_initNext (hbase : NamedAsBase mat) (hok : point.keepsJobs d answer)
    (h : s.initNext d mat point answer = some (t, next)) : InitStep s t mat.expandedName point next := by
  have hnone : ∀ {names : List JsString}, ∀ name ∈ ([] : List JsString), name ∈ names :=
    nofun
  have hfails : ∀ {point : InitCallPoint}, point.jobNames = [] →
      InitStep s (s.addJobsToRun [initNext.initFailedJob mat]) mat.expandedName point
        (some .release) := by
    intro point hnames
    refine initStep_addJobsToRun (fun name hname => ?_) fun _ => mem_singleton_self _
    rw [hnames] at hname
    exact absurd hname not_mem_nil
  unfold initNext at h
  split at h
  case h_5 | h_7 =>
    cases h
    exact initStep_head (mem_singleton_self _)
  · split at h <;> cases h
    case h_1 | h_2 => exact hfails rfl
    all_goals exact initStep_goesOn hnone fun _ => rfl
  · cases h
    exact hfails rfl
  · cases h
    exact initStep_note (names_resolveInit hbase)
  · next rejected _ =>
    cases h
    refine initStep_head (mem_singleton.2 ?_)
    let job : DispatchedJob :=
      { jobName := rejected.expandedName, matrixValues := rejected.variantValues }
    have hname : (job.variantTrackingFields rejected).jobName = rejected.expandedName :=
      jobName_variantTrackingFields
    exact hname.symm
  · next held todo =>
    cases h
    have hhold : holdJobForApproval d.stored held = some ⟨held, .approvalHeld, trackedJob held,
        buildExecutionJobInput held⟩ := if_pos hok
    refine initStep_head ?_
    rw [hhold]
    exact mem_singleton.2 jobName_trackedJob.symm
  · cases h
    exact initStep_goesOn (fun name hname => hname) fun hwaits => hwaits
  · cases h
    exact initStep_goesOn hnone fun hwaits => absurd hwaits Bool.false_ne_true
  · obtain ⟨call, hcall, heq⟩ := map_eq_some_iff.1 h
    cases heq
    refine initStep_goesOn (fun name hname => ?_) fun hwaits => hwaits
    exact mem_append.2 ((mem_append.1 hname).imp_left (perm_dispatched hcall).mem_iff.2)
  · obtain ⟨call, hcall, heq⟩ := map_eq_some_iff.1 h
    cases heq
    refine initStep_goesOn (fun name hname => ?_) fun hwaits => hwaits
    exact mem_append.2 ((mem_append.1 hname).imp_left (perm_rerouted hcall).mem_iff.2)
  · next routed call todo =>
    obtain ⟨hover, heq⟩ := ite_none_right_eq_some.1 h
    cases heq
    obtain ⟨hjobs, htoReroute⟩ := Bool.and_eq_true_iff.1 hover
    have hfailed : call.result.failedJobs = [] := List.isEmpty_iff.1 hok
    rw [List.isEmpty_iff] at hjobs htoReroute
    refine initStep_addJobsToRun (fun name hname => ?_) fun hwaits => absurd hwaits Bool.false_ne_true
    rw [InitCallPoint.jobNames, RouteCall.jobNames, hjobs, htoReroute, hfailed] at hname
    refine (mem_append.1 hname).imp_left fun hrouted => ?_
    simpa [comp_def] using hrouted
  · cases h
    exact {
      point := rfl
      dispatchedJobs := rfl
      inits := rfl
      registered := List.Subset.refl _
      events := List.Subset.refl _
      tokens := rfl
      names := nofun
      waits := fun hwaits => absurd hwaits Bool.false_ne_true }
  · cases h

theorem Kept.init (h : s.Kept d) (hbase : ∀ mat ∈ d.run.materializedJobs, NamedAsBase mat)
    (hok : s.keepsJobs d (.init k answer)) (hstep : s.step d (.init k answer) = some t) : t.Kept d := by
  obtain ⟨call, hcall, hstep⟩ := bind_eq_some_iff.1 hstep
  obtain ⟨⟨u, next⟩, hnext, heq⟩ := bind_eq_some_iff.1 hstep
  cases heq
  have hmem : call ∈ s.inits := mem_of_getElem? hcall
  rw [keepsJobs, hcall, all_some] at hok
  have hinit := initStep_initNext (hbase _ (h.mats call hmem)) hok hnext
  rw [hinit.inits]
  set calls := s.inits.take k ++ (next.map fun point => { call with point }).toList ++
    s.inits.drop (k + 1) with hcalls
  have hstay : ∀ c ∈ s.inits, c = call ∨ c ∈ calls := fun c hc => eq_or_mem_replaced hcall hc
  have hgoes : ∀ point ∈ next, { call with point } ∈ calls := by
    rintro point rfl
    exact mem_append_left _ (mem_append_right _ (mem_singleton_self _))
  -- What a task was to register it registers now, or is still to register.
  have htasked : ∀ name, s.Tasked name → Tasked { u with inits := calls } name := by
    rintro name (hdone | ⟨c, hc, hname⟩)
    · exact .inl (registered_mono hinit.registered hdone)
    · rcases hstay c hc with rfl | hc
      · exact (hinit.names name hname).imp id fun ⟨point, hpoint, hname⟩ =>
          ⟨_, hgoes point hpoint, hname⟩
      · exact .inr ⟨c, hc, hname⟩
  refine ⟨?_, ?_, ?_, ?_⟩
  · rw [hinit.point]
    exact h.routed
  · intro c hc
    rcases mem_or_mem_of_replaced hc with hold | hnew
    · exact h.mats c hold
    · obtain ⟨point, -, rfl⟩ := map_eq_some_iff.1 (mem_toList.1 hnew)
      exact h.mats call hmem
  · have hlength : calls.length = s.inits.length - 1 + _ := length_replaced hcall
    have hpos := length_pos_of_mem hmem
    rw [hinit.point, hinit.tokens, h.tokens, hlength]
    cases next with
    | none => simp only [if_true, map_none, toList_none, length_nil]; omega
    | some point => simp only [reduceCtorEq, if_false, map_some, toList_some, length_singleton]; omega
  · intro mat hmat
    rcases h.settled mat hmat with hdone | howes | ⟨c, hc, hwaits, hname⟩ | hsuppressed |
      ⟨children, hexpanded, hall⟩
    · exact .inl (htasked _ hdone)
    · refine .inr (.inl ?_)
      rw [Owes, hinit.point, hinit.dispatchedJobs]
      exact howes
    · rcases hstay c hc with rfl | hc
      · rcases hinit.waits hwaits with hdone | ⟨point, hpoint, hwaits' | htask⟩ | hsuppressed |
          ⟨children, hexpanded, point, hpoint, hall⟩
        · exact .inl (.inl (hname ▸ hdone))
        · exact .inr (.inr (.inl ⟨_, hgoes point hpoint, hwaits', hname⟩))
        · exact .inl (.inr ⟨_, hgoes point hpoint, hname ▸ htask⟩)
        · exact .inr (.inr (.inr (.inl (hname ▸ hsuppressed))))
        · refine .inr (.inr (.inr (.inr ⟨children, hname ▸ hexpanded, fun child hchild => .inr ?_⟩)))
          exact ⟨_, hgoes point hpoint, hall child hchild⟩
      · exact .inr (.inr (.inl ⟨c, hc, hwaits, hname⟩))
    · exact .inr (.inr (.inr (.inl (hinit.events hsuppressed))))
    · exact .inr (.inr (.inr (.inr ⟨children, hinit.events hexpanded, fun child hchild =>
        htasked child (hall child hchild)⟩)))

/-- When no token is held any more, nothing is left to be registered. -/
theorem Kept.accounted (h : s.Kept d) (hstarted : s.point ≠ .start)
    (hreleased : s.pendingJobRegistrations = 0) :
    ∀ mat ∈ d.run.materializedJobs, s.Accounted mat.expandedName := by
  intro mat hmat
  have htokens := h.tokens
  rw [hreleased, eq_comm, Nat.add_eq_zero_iff] at htokens
  obtain ⟨hwindow, hinits⟩ := htokens
  have hnil : s.inits = [] := eq_nil_of_length_eq_zero hinits
  have hdone : s.point = .done := by
    have hone : d.windowTokens = 1 := if_neg (ne_nil_of_mem hmat)
    rw [hone] at hwindow
    cases hpoint : s.point with
    | start => exact absurd hpoint hstarted
    | done => rfl
    | _ =>
      rw [hpoint] at hwindow
      exact absurd hwindow Nat.one_ne_zero
  have hregistered : ∀ {name}, s.Tasked name → s.Registered name := by
    rintro name (hdone | ⟨call, hcall, -⟩)
    · exact hdone
    · rw [hnil] at hcall
      exact absurd hcall not_mem_nil
  rcases h.settled mat hmat with htasked | howes | ⟨call, hcall, -⟩ | hsuppressed |
    ⟨children, hexpanded, hall⟩
  · exact .inl (hregistered htasked)
  · rw [Owes, hdone] at howes
    rcases howes with hmem | ⟨hfalse, -⟩ | ⟨hfalse, -⟩
    · exact absurd hmem not_mem_nil
    all_goals exact absurd hfalse Bool.false_ne_true
  · rw [hnil] at hcall
    exact absurd hcall not_mem_nil
  · exact .inr (.inl hsuppressed)
  · exact .inr (.inr ⟨children, hexpanded, fun child hchild => hregistered (hall child hchild)⟩)

theorem kept_init (d : Registration) : Kept d {} where
  routed _ hcall := StaticPoint.noConfusion hcall
  mats _ hcall := absurd hcall not_mem_nil
  tokens := rfl
  settled _ hmat := .inr (.inl (.inl (mem_map_of_mem hmat)))

end RegistrationState

/-! ## The end of the dispatch -/

section Released

variable {d : Registration} {s : RegistrationState}
  {hostTargets : LockJob → Except FanoutError (List ResolvedHostAgent)} {maxFanoutHosts : ℕ}
  {staticJobs : List LockJob}

/-- When the last token is dropped, every job of a workflow is registered, unless its init job told
that it is not to run, or the children of its matrix have taken its place. -/
theorem accounted_of_released
    (hrun : d.run = d.rt.materializeStaticJobsSafe hostTargets maxFanoutHosts staticJobs)
    (hreach : (registrationSystem d).Reachable (fun s a => s.keepsJobs d a) s)
    (hstarted : s.point ≠ .start) (hreleased : s.pendingJobRegistrations = 0) :
    ∀ mat ∈ d.run.materializedJobs, s.Accounted mat.expandedName := by
  have hbase : ∀ mat ∈ d.run.materializedJobs, NamedAsBase mat := by
    rw [hrun]
    exact fun mat hmat => namedAsBase_of_mem hmat
  have hkept : s.Kept d := by
    refine hreach.invariant (fun s hinit => ?_) fun s a t h hok hstep => ?_
    · obtain rfl : s = {} := hinit
      exact RegistrationState.kept_init d
    · cases a with
      | static answer => exact h.static hok hstep
      | init k answer => exact h.init hbase hok hstep
  exact hkept.accounted hstarted hreleased

/-- Two jobs that are dispatched at once, and one that waits for an init job. -/
def threeJobs : List LockJob :=
  [{ name := "build" }, { name := "test" }, { name := "deploy", dynamicEnv := true }]

/-- Their dispatch. -/
def threeJobRun : Registration where
  rt := lowercaseFanoutRuntime
  run := lowercaseFanoutRuntime.materializeStaticJobsSafe (fun _ => .ok []) 0 threeJobs

/-- The first job stays here, the second one is offered to the peers. -/
def routeTwo (answer : DispatchResult) (peers : RerouteResult) : List RegistrationAction :=
  [.static (.peers true), .static (.dispatch (.dispatched "job-1")), .static (.dispatch answer),
    .static (.reroute 0 peers), .static .ok, .static .ok, .static .ok]

/-- The init job is over, and its job is dispatched here. -/
def initDispatched : List RegistrationAction :=
  [.init 0 (.dispatch (.queued "init-1")), .static .ok, .init 0 (.init {} {} fun _ => {}),
    .init 0 (.dispatch (.rejected "queue full")), .init 0 .ok, .init 0 .ok]

/-- A peer takes one of the jobs, another one is rejected: all of them are registered. -/
theorem accounted_of_released_rerouted : ∃ s : RegistrationState,
    (registrationSystem threeJobRun).Reachable (fun s a => s.keepsJobs threeJobRun a) s ∧
      s.registered.map (·.jobName) = [js "build", js "test", js "deploy"] ∧
        ∀ mat ∈ threeJobRun.run.materializedJobs, s.Accounted mat.expandedName := by
  obtain ⟨s, hpath, hs⟩ : ∃ s,
    (registrationSystem threeJobRun).Path (fun s a => s.keepsJobs threeJobRun a) {} s ∧
      decide (s.registered.map (·.jobName) = [js "build", js "test", js "deploy"] ∧
        s.point.records = false ∧ s.pendingJobRegistrations = 0) :=
    System.exists_path_of_run (fun _ _ h => h)
      (routeTwo (.queuedNoBackend "job-2") (.success "job-3") ++ initDispatched) (by decide)
  obtain ⟨hnames, hrecords, hreleased⟩ := of_decide_eq_true hs
  have hstarted : s.point ≠ .start := fun hpoint => by
    rw [hpoint] at hrecords
    cases hrecords
  have hreach : (registrationSystem threeJobRun).Reachable (fun s a => s.keepsJobs threeJobRun a) s :=
    ⟨_, rfl, hpath⟩
  exact ⟨s, hreach, hnames, accounted_of_released rfl hreach hstarted hreleased⟩

/-- No peer takes the second job: it is not registered. -/
theorem exists_not_accounted : ∃ d hostTargets maxFanoutHosts staticJobs s,
    d.run = d.rt.materializeStaticJobsSafe hostTargets maxFanoutHosts staticJobs ∧
      (registrationSystem d).Reachable System.anyStep s ∧ s.point ≠ .start ∧
      s.pendingJobRegistrations = 0 ∧
        ∃ mat ∈ d.run.materializedJobs, ¬s.Accounted mat.expandedName := by
  obtain ⟨s, hpath, hs⟩ := (registrationSystem threeJobRun).exists_path {}
      (fun s => s.registered.map (·.jobName) = [js "build", js "deploy"] ∧ s.events = [] ∧
        s.point.records = false ∧ s.pendingJobRegistrations = 0) System.anyStep_of_true
      (routeTwo (.rejected "queue full") (.failure "no peer") ++ initDispatched) (by decide)
  obtain ⟨hnames, hevents, hrecords, hreleased⟩ := hs
  refine ⟨threeJobRun, _, _, threeJobs, s, rfl, ⟨_, rfl, hpath⟩, fun hpoint => ?_, hreleased,
    { lockJob := { name := "test" }, baseName := "test", expandedName := "test" },
    mem_cons_of_mem _ mem_cons_self, ?_⟩
  · rw [hpoint] at hrecords
    cases hrecords
  · rintro (⟨job, hjob, hname⟩ | hsuppressed | ⟨children, hexpanded, -⟩)
    · have hmem := mem_map_of_mem (f := (·.jobName)) hjob
      rw [hname, hnames] at hmem
      revert hmem
      decide
    · rw [hevents] at hsuppressed
      cases hsuppressed
    · rw [hevents] at hexpanded
      cases hexpanded

end Released

end Kici
