import Kici.Agent.Registry
import Kici.Js.Json

/-!
# Which agents can run a job

Labels do not say everything about an agent: it may have been started inside the image of another
job, its host may be unable to start containers, or it may have been started ahead of time, in a
shape of its own. `canAgentRunJob` is the predicate that every way to hand out a job asks;
`agentMayRefuse` says whether it may be `false` for an agent at all
(`canAgentRunJob_of_not_agentMayRefuse`).
-/

namespace Kici

/-! ## Versions -/

/-- A version's release triple, with any prerelease suffix dropped. -/
structure VersionBase where
  major : ℕ
  minor : ℕ
  patch : ℕ

/-- The number that a part of a version stands for, which has digits only. -/
def versionNumber (part : List Char) : Option ℕ :=
  if part ≠ [] ∧ part.all Char.isDigit then some
    (part.foldl (fun n c => 10 * n + (c.toNat - '0'.toNat)) 0)
  else none

def parseVersionBase (js : JsRuntime) (version : String) : Option VersionBase :=
  match ((js.trim version).toList.takeWhile (· ≠ '-')).splitOn '.' with
  | [major, minor, patch] => do
    return ⟨← versionNumber major, ← versionNumber minor, ← versionNumber patch⟩
  | _ => none

def VersionBase.atLeast (actual required : VersionBase) : Bool :=
  if actual.major ≠ required.major then required.major < actual.major
  else if actual.minor ≠ required.minor then required.minor < actual.minor
  else required.patch ≤ actual.patch

def agentVersionAtLeast (js : JsRuntime) (version : Option String) (minimum : String) : Bool :=
  match version.filter (· ≠ "") with
  | none => false
  | some version =>
    match parseVersionBase js version, parseVersionBase js minimum with
    | some actual, some required => actual.atLeast required
    | _, _ => false

/-! ## What a job asks of the host -/

/-- What a job asks of the container runtime on the agent that runs it. -/
inductive JobContainerNeed
  | none
  | image
  | dockerfile
  deriving DecidableEq

def jobContainerNeed (container : Json) : JobContainerNeed :=
  if !container.truthy then .none
  else
    match container.prop "dockerfile" with
    | .str dockerfile => if dockerfile ≠ [] then .dockerfile else .image
    | _ => .image

/-- The resources that a job declares, which are an object; otherwise `undefined`. -/
def resourcesFromJobConfig (jobConfig : Json) : Json :=
  match jobConfig.prop "resources" with
  | .obj entries => .obj entries
  | .arr values => .arr values
  | _ => .undefined

def runtimeLabel (name : String) : String := "kici:runtime:" ++ name

/-- The label of a host that can build an image. -/
def CONTAINER_BUILD_RUNTIME_LABEL : String := runtimeLabel "container-build"

/-- The label an agent running inside a job's own image registers with. -/
def JOB_IMAGE_RUNTIME_LABEL : String := runtimeLabel "job-image"

/-- The labels that prove that the host of an agent can start a container. -/
def CONTAINER_RUNTIME_LABELS : List String := [runtimeLabel "docker", runtimeLabel "podman"]

def hasContainerRuntime (labels : List String) : Bool := labels.any (· ∈ CONTAINER_RUNTIME_LABELS)

/-- The first agent release whose runtime labels prove what they do not say. -/
def MIN_RUNTIME_FACTS_AGENT_VERSION : String := "0.10.0"

def reportsRuntimeFacts (js : JsRuntime) (labels : List String) (version : Option String) : Bool :=
  JOB_IMAGE_RUNTIME_LABEL ∈ labels || agentVersionAtLeast js version MIN_RUNTIME_FACTS_AGENT_VERSION

/-! ## Agents -/

/-- The job an agent was started for, and whether the agent runs in the image of that job. -/
structure ScalerBinding where
  jobId : String
  jobImage : Bool

/-- What the scaler knows about an agent it has started. -/
structure ScalerAgentView where
  binding : Option ScalerBinding := none
  /-- The agent was started ahead of time. -/
  prespawned : Bool := false
  shapeFits : Json → Bool
  /-- Only an agent that was started ahead of time has a shape of its own. -/
  shapeFits_of_not_prespawned : prespawned = false → ∀ resources, shapeFits resources = true

/-- The facts about an agent that `canAgentRunJob` reads. -/
structure FitAgent where
  labels : List String
  version : Option String
  scalerManaged : Bool
  scaler : Option ScalerAgentView

/-- The facts about a job that `canAgentRunJob` reads. -/
structure AgentFitJob where
  jobId : Option String
  resources : Json
  container : JobContainerNeed

/-- The facts about a registered agent. -/
def fitAgentFor (agent : AgentEntry) (scalerAgentView : String → Option ScalerAgentView) : FitAgent where
  labels := agent.labels
  version := agent.version
  scalerManaged := agent.scalerManaged
  scaler := scalerAgentView agent.agentId

namespace FitAgent

variable (js : JsRuntime) (agent : FitAgent) (job : AgentFitJob)

def isJobImageAgent : Bool :=
  ((agent.scaler.bind (·.binding)).any (·.jobImage)) || JOB_IMAGE_RUNTIME_LABEL ∈ agent.labels

/-- Whether a runtime label that the agent does not report says that it has no runtime. -/
def runtimeLabelIsProof : Bool :=
  agent.scaler.isSome || agent.scalerManaged || reportsRuntimeFacts js agent.labels agent.version

/-- Whether the agent was started for the job. -/
def isBoundTo (jobId : Option String) : Bool :=
  (agent.scaler.bind (·.binding)).any fun binding => jobId = some binding.jobId

def canAgentRunJob : Bool :=
  if agent.isBoundTo job.jobId then true
  else if agent.isJobImageAgent then false
  else if job.container ≠ .none ∧ !hasContainerRuntime agent.labels ∧
    agent.runtimeLabelIsProof js then false
  else agent.scaler.all (·.shapeFits job.resources)

/-- Whether there are jobs that the agent cannot run. -/
def agentMayRefuse : Bool :=
  if agent.isJobImageAgent then true
  else if !hasContainerRuntime agent.labels ∧ agent.runtimeLabelIsProof js then true
  else agent.scaler.any (·.prespawned)

variable {js agent}

/-- An agent that may not refuse runs every job. -/
theorem canAgentRunJob_of_not_agentMayRefuse (h : agent.agentMayRefuse js = false) :
    agent.canAgentRunJob js job := by
  unfold agentMayRefuse at h
  split at h
  · cases h
  · next himage =>
    split at h
    · cases h
    · next hruntime =>
      unfold canAgentRunJob
      split
      · rfl
      · rw [if_neg fun hcontainer => hruntime hcontainer.2, Option.all_eq_true]
        intro view hview
        rw [Option.any_eq_false] at h
        exact view.shapeFits_of_not_prespawned (h view hview) job.resources

/-- Without an id, a job is like one that the agent was not started for. -/
theorem canAgentRunJob_none (h : agent.isBoundTo job.jobId = false) :
    agent.canAgentRunJob js { job with jobId := none } = agent.canAgentRunJob js job := by
  have hnone : agent.isBoundTo none = false := by
    cases hbinding : agent.scaler.bind (·.binding) <;> simp [isBoundTo, hbinding]
  simp only [canAgentRunJob, h, hnone]

end FitAgent

end Kici
