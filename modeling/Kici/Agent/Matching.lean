import Kici.Agent.Fit
import Kici.Agent.LabelIndex
import Kici.Queue.DrainOrder

/-!
# Push and pull

A job comes to an agent in two ways. The dispatcher looks for an agent as it has a job
(`availableFor`), or for a job as it has an agent (`onAgentAvailable`). The first asks the registry,
the second the database.

The two ways agree, but for jobs with a Dockerfile: of these the first asks that the agent can build
images, and counts the label of that as one of the job's; the second knows of neither
(`selects_iff_claims`).
-/

namespace Kici

open JobQueue DispatchRow List

/-! ## Push -/

/-- The labels of the runtime that a job asks of its agent. -/
def requiredRuntimeLabelsFor (container : Json) : List String :=
  match container.prop "dockerfile" with
  | .str dockerfile => if dockerfile ≠ [] then [CONTAINER_BUILD_RUNTIME_LABEL] else []
  | _ => []

/-- The labels that a job asks of a registered agent. -/
def matchLabelsFor (runsOnLabels : List String) (jobConfig : Json) : List String :=
  let extra := requiredRuntimeLabelsFor (jobConfig.prop "container")
  if extra = [] then runsOnLabels else runsOnLabels ++ extra

/-- What the fit of an agent is judged by, of a job whose resources may be told beside its
configuration. -/
def agentFitFor (resources jobConfig : Json) (jobId : Option String) : AgentFitJob where
  jobId
  resources := resources.orElse (resourcesFromJobConfig jobConfig)
  container := jobContainerNeed (jobConfig.prop "container")

/-- What a dispatcher knows of the jobs' configurations, and of the agents that its scaler has
started. -/
structure FitContext where
  /-- A configuration as it is stored, read. -/
  parse : String → Json
  scalerAgentView : String → Option ScalerAgentView

def filterUnservableAgents (js : JsRuntime) (ctx : FitContext) (agents : List AgentEntry)
    (fit : AgentFitJob) : List AgentEntry :=
  agents.filter fun e => (fitAgentFor e ctx.scalerAgentView).canAgentRunJob js fit

/-- The agents that a job is offered to. -/
def availableFor {js : JsRuntime} (registry : AgentRegistry js) (ctx : FitContext) (now : ℕ)
    (job : QueuedJobInput)
    (resources : Json) (jobId : Option String) : Except RegExpError (List AgentEntry) := do
  let jobConfig := ctx.parse job.jobConfig
  let available ← registry.findAvailable now {
    requiredLabels := matchLabelsFor job.runsOnLabels jobConfig
    requiredPatterns := job.runsOnPatterns
    excludeLabels := job.excludeLabels
    excludePatterns := job.excludePatterns }
  return filterUnservableAgents js ctx available (agentFitFor resources jobConfig jobId)

/-! ## Pull -/

/-- The test of jobs for an agent that cannot run every job. -/
def agentFitFilterFor (js : JsRuntime) (ctx : FitContext) (agent : AgentEntry) :
    Option (QueuedJob → Bool) :=
  let fitAgent := fitAgentFor agent ctx.scalerAgentView
  if fitAgent.agentMayRefuse js then
    some fun job =>
      let jobConfig := ctx.parse job.jobConfig
      fitAgent.canAgentRunJob js (agentFitFor (resourcesFromJobConfig jobConfig) jobConfig (some job.id))
  else none

/-- An agent that has become available gets a job from the queue. -/
def onAgentAvailable {js : JsRuntime} (registry : AgentRegistry js) (ctx : FitContext) (q : JobQueue)
    (order : OrderBy createdAt) (db : Db) (now : ℕ) (agentId : String) :
    Except RegExpError (Option QueuedJob × Db) :=
  match registry.get agentId with
  | none => .ok (none, db)
  | some agent =>
    if agent.draining then .ok (none, db)
    else if !agent.agentHasFreeSlot now then .ok (none, db)
    else q.dequeueForLabels js order db now ⟨agent.labels, agent.mandatoryLabels, some agentId⟩
      (agentFitFilterFor js ctx agent)

/-! ## Agreement -/

def QueuedJobInput.selectors (job : QueuedJobInput) : AgentSelectors where
  requiredLabels := job.runsOnLabels
  requiredPatterns := job.runsOnPatterns
  excludeLabels := job.excludeLabels
  excludePatterns := job.excludePatterns

/-- A row holds what was given to enqueue a job. -/
structure DispatchRow.Stores (js : JsRuntime) (row : DispatchRow) (job : QueuedJobInput) : Prop where
  id : row.id = job.jobId
  runsOnLabels : row.runsOnLabels = js.canonicalizeLabels job.runsOnLabels
  runsOnPatterns : row.runsOnPatterns = job.runsOnPatterns
  excludeLabels : row.excludeLabels = js.canonicalizeLabels job.excludeLabels
  excludePatterns : row.excludePatterns = job.excludePatterns
  pinnedAgentId : row.pinnedAgentId = job.pinnedAgentId
  jobConfig : row.jobConfig = job.jobConfig

theorem JobQueue.stores_rowOf (js : JsRuntime) (now : ℕ) (job : QueuedJobInput) (expiresAt : Option ℕ) :
    Stores js { rowOf js now job .pending with expiresAt } job :=
  ⟨rfl, rfl, rfl, rfl, rfl, rfl, rfl⟩

/-- The job waits in the queue, and no other job does. -/
structure OnlyWaiting (js : JsRuntime) (q : JobQueue) (db : Db) (now : ℕ) (job : QueuedJobInput)
    (row : DispatchRow) : Prop where
  stores : row.Stores js job
  only : db.OnlyPending row
  pending : row.status = .pending
  unexpired : ∀ expiresAt ∈ row.expiresAt, db.now ≤ expiresAt
  runs : db.notTerminalRun row = true
  /-- The coordinator has not put the job back to be opened by another one. -/
  notDeferred : q.isDeferredUnopenable now row.id = false

section
variable {js : JsRuntime} {registry : AgentRegistry js} {ctx : FitContext} {q : JobQueue}
  {order : OrderBy createdAt} {db : Db} {now : ℕ} {e : AgentEntry} {job : QueuedJobInput}
    {row : DispatchRow}
  {resources : Json} {jobId : Option String}

/-- An agent is offered a job exactly if it satisfies the selectors, with the labels of the runtime,
and can run the job. -/
theorem exists_mem_availableFor :
    (∃ found, availableFor registry ctx now job resources jobId = .ok found ∧ e ∈ found) ↔
      e ∈ registry.agents ∧ e.draining = false ∧ e.agentHasFreeSlot now ∧
        agentSatisfies js e { job.selectors with
          requiredLabels := matchLabelsFor job.runsOnLabels (ctx.parse job.jobConfig) } = .ok true ∧
        (fitAgentFor e ctx.scalerAgentView).canAgentRunJob js
          (agentFitFor resources (ctx.parse job.jobConfig) jobId) := by
  constructor
  · rintro ⟨found, hfound, he⟩
    obtain ⟨available, havailable, heq⟩ := bind_eq_ok hfound
    cases heq
    obtain ⟨hmem, hfit⟩ := mem_filter.1 he
    obtain ⟨hagent, hdraining, hfree, hsatisfies⟩ := (AgentRegistry.mem_findAvailable havailable).1 hmem
    exact ⟨hagent, hdraining, hfree, hsatisfies, hfit⟩
  · rintro ⟨hagent, hdraining, hfree, hsatisfies, hfit⟩
    obtain ⟨available, havailable, hmem⟩ :=
      AgentRegistry.exists_mem_findAvailable.2 ⟨hagent, hdraining, hfree, hsatisfies⟩
    exact ⟨_, bind_ok havailable rfl, mem_filter.2 ⟨hmem, hfit⟩⟩

/-- The test of jobs says whether the agent can run a job. -/
theorem all_agentFitFilterFor (taken : QueuedJob) :
    (agentFitFilterFor js ctx e).all (fun canServe => canServe taken) =
      (fitAgentFor e ctx.scalerAgentView).canAgentRunJob js
        (agentFitFor (resourcesFromJobConfig (ctx.parse taken.jobConfig)) (ctx.parse taken.jobConfig)
          (some taken.id)) := by
  simp only [agentFitFilterFor]
  split
  · rfl
  · next hrefuse =>
    rw [FitAgent.canAgentRunJob_of_not_agentMayRefuse _ (Bool.eq_false_iff.2 hrefuse)]
    rfl

theorem canonicalizeLabels_labels (hjs : js.LowerCases) (he : e ∈ registry.agents) :
    js.canonicalizeLabels e.labels = e.labels ∧
    js.canonicalizeLabels e.mandatoryLabels = e.mandatoryLabels := by
  obtain ⟨⟨raw, hlabels⟩, mandatory, hmandatory⟩ := registry.canonical e he
  rw [hlabels, hmandatory]
  exact ⟨hjs.canonicalizeLabels raw, hjs.canonicalizeLabels mandatory⟩

/-- Whether the labels of the agent and its gate are as the row of the job asks. -/
theorem eligible_iff (hjs : js.LowerCases) (he : e ∈ registry.agents)
    (hwaits : OnlyWaiting js q db now job row) (hunpinned : job.pinnedAgentId = none) :
    Eligible js q db now ⟨e.labels, e.mandatoryLabels, some e.agentId⟩ row ↔
      (∀ label ∈ js.canonicalizeLabels job.runsOnLabels, label ∈ e.labels) ∧
        (∀ label ∈ js.canonicalizeLabels job.excludeLabels, label ∉ e.labels) ∧
        ∀ label ∈ e.mandatoryLabels, label ∈ js.canonicalizeLabels job.runsOnLabels := by
  obtain ⟨hlabels, hmandatory⟩ := canonicalizeLabels_labels hjs he
  constructor
  · intro h
    have hsub := h.labels
    have hexcludes := h.excludes
    have hgate := h.gate
    simp only [hlabels, hmandatory, hwaits.stores.runsOnLabels, hwaits.stores.excludeLabels]
      at hsub hexcludes hgate
    exact ⟨hsub, hexcludes, hgate⟩
  · rintro ⟨hsub, hexcludes, hgate⟩
    refine ⟨hwaits.pending, hwaits.unexpired, ?_, ?_, ?_, ?_, hwaits.runs, hwaits.notDeferred⟩
    · simp only [hlabels, hwaits.stores.runsOnLabels]
      exact hsub
    · simp only [hlabels, hwaits.stores.excludeLabels]
      exact hexcludes
    · rw [hwaits.stores.pinnedAgentId, hunpinned]
      simp
    · simp only [hmandatory, hwaits.stores.runsOnLabels]
      exact hgate

/-- What the expressions of a row say. -/
theorem jobPatternsSatisfiedBy_iff {labels : List String} :
    jobPatternsSatisfiedBy js (rowToQueuedJob js row) labels = .ok true ↔
      (∀ m ∈ row.runsOnPatterns.map js.canonicalizeMatcher, js.matcherSatisfiedBy labels m = .ok true) ∧
        ∀ m ∈ row.excludePatterns.map js.canonicalizeMatcher,
        js.matcherSatisfiedBy labels m = .ok false := by
  simp only [jobPatternsSatisfiedBy, ifNot_eq_ok_true, ifThen_eq_ok_true, allM_eq_ok_true,
    anyM_eq_ok_false]
  simp [rowToQueuedJob, pure, Except.pure]

theorem satisfiesMandatoryLabels_iff (hjs : js.LowerCases) {required : List String} :
    e.satisfiesMandatoryLabels js (js.canonicalizeLabels required) ↔
      ∀ label ∈ e.mandatoryLabels, label ∈ js.canonicalizeLabels required := by
  rw [AgentEntry.satisfiesMandatoryLabels, hjs.canonicalizeLabels]
  simp

/-- An agent gets the job exactly if it satisfies its selectors and can run it. -/
theorem exists_onAgentAvailable (hjs : js.LowerCases) (he : e ∈ registry.agents)
    (hfree : e.agentHasFreeSlot now)
    (hwaits : OnlyWaiting js q db now job row) (hunpinned : job.pinnedAgentId = none) :
    (∃ taken db', onAgentAvailable registry ctx q order db now e.agentId = .ok (some taken, db') ∧
      taken.id = job.jobId) ↔ e.draining = false ∧ agentSatisfies js e job.selectors = .ok true ∧
        (fitAgentFor e ctx.scalerAgentView).canAgentRunJob js (agentFitFor
          (resourcesFromJobConfig (ctx.parse job.jobConfig)) (ctx.parse job.jobConfig)
          (some job.jobId)) := by
  have hget : registry.get e.agentId = some e := Table.lookup_of_mem he
  cases hdraining : e.draining with
  | true => simp [onAgentAvailable, hget, hdraining]
  | false =>
    simp only [onAgentAvailable, hget, hdraining, hfree, Bool.false_eq_true, Bool.not_true,
      if_false, true_and]
    rw [← hwaits.stores.id, dequeueForLabels_iff_admits hwaits.only, Admits,
      eligible_iff hjs he hwaits hunpinned, agentSatisfies_eq_ok_true, verdict, and_eq_ok_true,
      all_agentFitFilterFor, jobPatternsSatisfiedBy_iff, (canonicalizeLabels_labels hjs he).1,
      satisfiesMandatoryLabels_iff hjs]
    simp only [rowToQueuedJob, QueuedJobInput.selectors, hwaits.stores.runsOnPatterns,
      hwaits.stores.excludePatterns, hwaits.stores.jobConfig]
    constructor
    · rintro ⟨⟨hrequired, hexcluded, hgate⟩, ⟨hpatterns, hexcludePatterns⟩, hfit⟩
      exact ⟨⟨hrequired, hpatterns, hexcluded, hexcludePatterns, hgate⟩, hfit⟩
    · rintro ⟨⟨hrequired, hpatterns, hexcluded, hexcludePatterns, hgate⟩, hfit⟩
      exact ⟨⟨hrequired, hexcluded, hgate⟩, ⟨hpatterns, hexcludePatterns⟩, hfit⟩

/-! ## Dockerfiles -/

theorem requiredRuntimeLabelsFor_eq (container : Json) : requiredRuntimeLabelsFor container =
    if jobContainerNeed container = .dockerfile then [CONTAINER_BUILD_RUNTIME_LABEL] else [] := by
  unfold requiredRuntimeLabelsFor jobContainerNeed
  cases container with
  | obj entries =>
    cases hdockerfile : (Json.obj entries).prop "dockerfile" with
    | str dockerfile => by_cases hempty : dockerfile = [] <;> simp [Json.truthy, hempty]
    | undefined | null | bool | num | arr | obj => simp [Json.truthy]
  | undefined | null | bool | num | str | arr =>
    simp only [Json.prop, Json.entries, lookup_nil, Option.getD_none]
    split <;> simp

/-- The label of the runtime makes no difference: the gate of the agent is open with it if it is
open without, and then the agent has the label. -/
def BuildLabelAgrees (js : JsRuntime) (e : AgentEntry) (job : QueuedJobInput) : Prop :=
  let build := js.canonicalizeLabel CONTAINER_BUILD_RUNTIME_LABEL
  let runsOn := js.canonicalizeLabels job.runsOnLabels
  (build ∈ e.labels ∧ ∀ label ∈ e.mandatoryLabels, label ∈ runsOn ∨ label = build) ↔
    ∀ label ∈ e.mandatoryLabels, label ∈ runsOn

/-- Whether an agent satisfies the selectors, its gate left aside. -/
def SatisfiesUngated (js : JsRuntime) (e : AgentEntry) (job : QueuedJobInput) : Prop :=
  agentSatisfies js { e with mandatoryLabels := [] } job.selectors = .ok true

theorem satisfies_iff (hjs : js.LowerCases) : agentSatisfies js e job.selectors = .ok true ↔
    SatisfiesUngated js e job ∧ ∀ label ∈ e.mandatoryLabels,
    label ∈ js.canonicalizeLabels job.runsOnLabels := by
  rw [SatisfiesUngated, agentSatisfies_eq_ok_true, agentSatisfies_eq_ok_true,
    satisfiesMandatoryLabels_iff hjs]
  simp [AgentEntry.satisfiesMandatoryLabels, QueuedJobInput.selectors, and_assoc]

/-- For a job with a Dockerfile the dispatcher also asks for the label of the runtime. -/
theorem satisfies_matchLabelsFor_iff (hjs : js.LowerCases) {jobConfig : Json}
    (hdockerfile : jobContainerNeed (jobConfig.prop "container") = .dockerfile) :
    agentSatisfies js e
    { job.selectors with requiredLabels := matchLabelsFor job.runsOnLabels jobConfig } = .ok true ↔
      SatisfiesUngated js e job ∧ js.canonicalizeLabel CONTAINER_BUILD_RUNTIME_LABEL ∈ e.labels ∧
        ∀ label ∈ e.mandatoryLabels, label ∈ js.canonicalizeLabels job.runsOnLabels ∨
          label = js.canonicalizeLabel CONTAINER_BUILD_RUNTIME_LABEL := by
  have hlabels : js.canonicalizeLabels (matchLabelsFor job.runsOnLabels jobConfig) =
      js.canonicalizeLabels job.runsOnLabels ++
        [js.canonicalizeLabel CONTAINER_BUILD_RUNTIME_LABEL] := by
    simp [matchLabelsFor, requiredRuntimeLabelsFor_eq, hdockerfile, JsRuntime.canonicalizeLabels]
  rw [SatisfiesUngated, agentSatisfies_eq_ok_true, agentSatisfies_eq_ok_true,
    satisfiesMandatoryLabels_iff hjs, hlabels]
  simp only [mem_append, mem_singleton, or_imp, forall_and, forall_eq]
  constructor
  · rintro ⟨⟨hrequired, hbuild⟩, hpatterns, hexcluded, hexcludePatterns, hgate⟩
    exact ⟨⟨hrequired, hpatterns, hexcluded, hexcludePatterns, rfl⟩, hbuild, hgate⟩
  · rintro ⟨⟨hrequired, hpatterns, hexcluded, hexcludePatterns, -⟩, hbuild, hgate⟩
    exact ⟨⟨hrequired, hbuild⟩, hpatterns, hexcluded, hexcludePatterns, hgate⟩

/-- For any other job it asks for nothing more. -/
theorem matchLabelsFor_of_ne {jobConfig : Json}
    (h : jobContainerNeed (jobConfig.prop "container") ≠ .dockerfile) :
    matchLabelsFor job.runsOnLabels jobConfig = job.runsOnLabels := by
  simp [matchLabelsFor, requiredRuntimeLabelsFor_eq, h]

/-- The fit is judged the same either way: the resources that may be told beside the configuration
are those of the configuration, and no agent was started for a job without an id. -/
theorem canAgentRunJob_agentFitFor (hresources : resources = .undefined ∨
      resources = resourcesFromJobConfig (ctx.parse job.jobConfig))
    (hjobId : jobId = some job.jobId ∨
      jobId = none ∧ (fitAgentFor e ctx.scalerAgentView).isBoundTo (some job.jobId) = false) :
    (fitAgentFor e ctx.scalerAgentView).canAgentRunJob js
    (agentFitFor resources (ctx.parse job.jobConfig) jobId) =
      (fitAgentFor e ctx.scalerAgentView).canAgentRunJob js (agentFitFor
        (resourcesFromJobConfig (ctx.parse job.jobConfig)) (ctx.parse job.jobConfig)
        (some job.jobId)) := by
  have hsame : ∀ declared : Json, declared.orElse declared = declared := fun declared =>
    ite_self declared
  have hfit : agentFitFor resources (ctx.parse job.jobConfig) (some job.jobId) =
      agentFitFor (resourcesFromJobConfig (ctx.parse job.jobConfig)) (ctx.parse job.jobConfig)
        (some job.jobId) := by
    rcases hresources with rfl | rfl
    · rw [agentFitFor, agentFitFor, hsame]
      rfl
    · rfl
  rw [← hfit]
  rcases hjobId with rfl | ⟨rfl, hbound⟩
  · rfl
  · exact FitAgent.canAgentRunJob_none
      (agentFitFor resources (ctx.parse job.jobConfig) (some job.jobId)) hbound

end

/-- For an agent with a free slot and a job for any agent, that waits alone: the dispatcher offers
the job to the agent exactly if the agent gets it from the queue, if and only if the job has no
Dockerfile, or the agent is none for it in other respects, or the label of the runtime makes no
difference. -/
theorem selects_iff_claims {js : JsRuntime} (hjs : js.LowerCases) {registry : AgentRegistry js}
    {ctx : FitContext}
    {q : JobQueue} {order : OrderBy createdAt} {db : Db} {now : ℕ} {e : AgentEntry}
    {job : QueuedJobInput} {row : DispatchRow} {resources : Json} {jobId : Option String}
    (he : e ∈ registry.agents) (hfree : e.agentHasFreeSlot now)
    (hwaits : OnlyWaiting js q db now job row) (hunpinned : job.pinnedAgentId = none)
    (hresources : resources = .undefined ∨ resources = resourcesFromJobConfig (ctx.parse job.jobConfig))
    (hjobId : jobId = some job.jobId ∨
      jobId = none ∧ (fitAgentFor e ctx.scalerAgentView).isBoundTo (some job.jobId) = false) :
    ((∃ found, availableFor registry ctx now job resources jobId = .ok found ∧ e ∈ found) ↔
      ∃ taken db', onAgentAvailable registry ctx q order db now e.agentId = .ok (some taken, db') ∧
        taken.id = job.jobId) ↔
    (jobContainerNeed ((ctx.parse job.jobConfig).prop "container") = .dockerfile → e.draining = false →
      SatisfiesUngated js e job →
      (fitAgentFor e ctx.scalerAgentView).canAgentRunJob js (agentFitFor
        (resourcesFromJobConfig (ctx.parse job.jobConfig)) (ctx.parse job.jobConfig) (some job.jobId)) →
      BuildLabelAgrees js e job) := by
  rw [exists_mem_availableFor, exists_onAgentAvailable hjs he hfree hwaits hunpinned,
    canAgentRunJob_agentFitFor hresources hjobId]
  by_cases hdockerfile : jobContainerNeed ((ctx.parse job.jobConfig).prop "container") = .dockerfile
  · rw [satisfies_matchLabelsFor_iff hjs hdockerfile, satisfies_iff hjs, BuildLabelAgrees]
    simp only [he, hfree, hdockerfile, true_and, forall_const]
    constructor
    · intro h hdraining hungated hfit
      constructor
      · intro hbuild
        exact (h.1 ⟨hdraining, ⟨hungated, hbuild⟩, hfit⟩).2.1.2
      · intro hgate
        exact (h.2 ⟨hdraining, ⟨hungated, hgate⟩, hfit⟩).2.1.2
    · intro h
      constructor
      · rintro ⟨hdraining, ⟨hungated, hbuild⟩, hfit⟩
        exact ⟨hdraining, ⟨hungated, (h hdraining hungated hfit).1 hbuild⟩, hfit⟩
      · rintro ⟨hdraining, ⟨hungated, hgate⟩, hfit⟩
        exact ⟨hdraining, ⟨hungated, (h hdraining hungated hfit).2 hgate⟩, hfit⟩
  · rw [matchLabelsFor_of_ne hdockerfile]
    simp only [he, hfree, hdockerfile, true_and, false_implies, iff_true]
    rfl

/-- A job with a Dockerfile, for agents on linux. -/
def dockerfileJob : QueuedJobInput where
  jobId := "image"
  runId := "run"
  jobName := "image"
  runsOnLabels := ["linux"]
  jobConfig := "\x7b\"container\":\x7b\"dockerfile\":\"Dockerfile\"\x7d\x7d"

/-- A dispatcher without a scaler. -/
def dockerfileContext : FitContext where
  parse text :=
    if text = dockerfileJob.jobConfig then .obj
      [("container", .obj [("dockerfile", .str "Dockerfile")])] else .obj []
  scalerAgentView _ := none

/-- A queue with the job alone. -/
def dockerfileDb : Db := enqueue lowercaseRuntime emptyQueue.db 0 dockerfileJob 0

theorem onlyWaiting_dockerfileJob : OnlyWaiting lowercaseRuntime {} dockerfileDb 0 dockerfileJob
    (rowOf lowercaseRuntime 0 dockerfileJob .pending) where
  stores := stores_rowOf lowercaseRuntime 0 dockerfileJob none
  only := ⟨mem_singleton_self _, fun r hr _ => mem_singleton.1 hr⟩
  pending := rfl
  unexpired _ hexpires := by cases hexpires
  runs := by decide
  notDeferred := by decide

/-- The registry of an agent on linux with Docker, and with other labels. -/
def dockerRegistry (labels : List String) : AgentRegistry lowercaseRuntime :=
  AgentRegistry.empty.register "builder" { labels := ["linux", "kici:runtime:docker"] ++ labels }

/-- The agent of the registry. -/
def dockerAgent (labels : List String) : AgentEntry where
  agentId := "builder"
  labels := ["linux", "kici:runtime:docker"] ++ labels

theorem lowerCases_lowercaseRuntime : lowercaseRuntime.LowerCases := ⟨fun _ => rfl, fun _ => rfl⟩

theorem dockerAgent_mem (labels : List String) :
    dockerAgent labels ∈ (dockerRegistry labels).agents := by
  have hlabels : lowercaseRuntime.canonicalizeLabels (["linux", "kici:runtime:docker"] ++ labels) =
      ["linux", "kici:runtime:docker"] ++ labels := map_id _
  refine Table.mem_put.2 (.inl ?_)
  rw [dockerAgent, hlabels]
  rfl

/-- An agent that can build images is offered the job, and gets it. -/
theorem selects_iff_claims_dockerfile :
    (∃ found, availableFor (dockerRegistry ["kici:runtime:container-build"]) dockerfileContext
      0 dockerfileJob
      .undefined none = .ok found ∧ dockerAgent ["kici:runtime:container-build"] ∈ found) ∧
    ∃ taken db', onAgentAvailable (dockerRegistry ["kici:runtime:container-build"]) dockerfileContext {}
      createdAtOrder dockerfileDb 0 "builder" = .ok (some taken, db') ∧ taken.id = "image" := by
  have hoffered : ∃ found, availableFor (dockerRegistry ["kici:runtime:container-build"])
    dockerfileContext 0
      dockerfileJob .undefined none = .ok found ∧ dockerAgent ["kici:runtime:container-build"] ∈ found :=
    exists_mem_availableFor.2 ⟨dockerAgent_mem _, rfl, rfl, rfl, rfl⟩
  have hagrees : BuildLabelAgrees lowercaseRuntime (dockerAgent ["kici:runtime:container-build"])
    dockerfileJob := by
    constructor
    · rintro - label hlabel
      cases hlabel
    · intro _
      refine ⟨by decide, fun label hlabel => ?_⟩
      cases hlabel
  refine ⟨hoffered, Iff.mp ?_ hoffered⟩
  exact (selects_iff_claims lowerCases_lowercaseRuntime (dockerAgent_mem _)
    rfl onlyWaiting_dockerfileJob rfl (.inl rfl) (.inr ⟨rfl, rfl⟩)).2 fun _ _ _ _ => hagrees

/-- An agent with Docker, that does not say that it can build images, is not offered the job, and
gets it. -/
theorem exists_claims_not_selected :
    (¬∃ found, availableFor (dockerRegistry []) dockerfileContext 0 dockerfileJob .undefined
      none = .ok found ∧ dockerAgent [] ∈ found) ∧
    ∃ taken db', onAgentAvailable (dockerRegistry []) dockerfileContext {} createdAtOrder dockerfileDb
    0 "builder" =
      .ok (some taken, db') ∧ taken.id = "image" := by
  refine ⟨fun hoffered => ?_, ?_⟩
  · obtain ⟨-, -, -, hsatisfies, -⟩ := exists_mem_availableFor.1 hoffered
    cases hsatisfies
  · exact (exists_onAgentAvailable lowerCases_lowercaseRuntime (dockerAgent_mem [])
      rfl onlyWaiting_dockerfileJob rfl).2 ⟨rfl, rfl, rfl⟩

end Kici
