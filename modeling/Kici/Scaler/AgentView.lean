import Kici.Agent.Matching
import Kici.Js.Number
import Mathlib.Data.Rat.Floor

/-!
# The agents of the scaler, as the dispatcher sees them

The scaler tells of each agent it has started what it was started for, and whether its shape suits a
job. An agent that was started ahead of time has the shape of its pool, which must be the one that
the job declares; of every other agent the answer is yes (`shapeFits_of_not_prespawned`), so that
`agentView` is a view as the dispatcher expects it.

The dispatcher drains the queue without a look at the jobs for agents that refuse none. That is sound
(`fast_path_sound`), and with the scaler's own views too (`canAgentRunJob_of_agentFitFilterFor`).
-/

namespace Kici.Scaler

open FitAgent

/-! ## Shapes -/

/-- The unit of memory that a letter stands for, in bytes. -/
def memoryUnit : UInt16 → Option ℕ
  | 0x6B | 0x4B => some 1024
  | 0x6D | 0x4D => some (1024 * 1024)
  | 0x67 | 0x47 => some (1024 * 1024 * 1024)
  | _ => none

/-- The parts of a text as `/^(\d+(?:\.\d+)?)\s*([kmgKMG])$/` matches it: a number, and a unit. -/
def matchMemory (memory : JsString) : Option (JsString × ℕ) :=
  let digits := memory.takeWhile isDecimalDigit
  let rest := memory.dropWhile isDecimalDigit
  let fraction := match rest with
    | 0x2E :: tail => 0x2E :: tail.takeWhile isDecimalDigit
    | _ => []
  if digits = [] ∨ fraction = [0x2E] then none
  else
    match (rest.drop fraction.length).dropWhile JsString.isWhiteSpace with
    | [letter] => (memoryUnit letter).map fun unit => (digits ++ fraction, unit)
    | _ => none

section

-- `⊤` is `Infinity`.
variable (parseFloat : JsString → WithTop ℚ)

/-- The bytes of a text such as `512m`; `none` where it throws. -/
def parseMemoryString (memory : Json) : Option (WithTop ℚ) :=
  match memory with
  | .str text => (matchMemory text).map fun (number, unit) =>
      WithTop.map (fun value => (⌊value * (unit : ℚ)⌋ : ℚ)) (parseFloat number)
  | _ => none

/-- An amount of resources that a scaler has resolved. -/
structure ResolvedSpec where
  cpus : ℚ
  memBytes : WithTop ℚ

/-- The resources of an agent; those that were restored after a restart have no limits. -/
structure ReservationEntry where
  requests : ResolvedSpec
  limits : Option ResolvedSpec

/-- A lone side of what a job declares stands for the other one too. -/
def mirrorRequestsLimits (resources : Json) : Option (Json × Json) :=
  if !resources.truthy then none
  else
    match resources.prop (js "requests"), resources.prop (js "limits") with
    | .undefined, .undefined => none
    | requests, .undefined => some (requests, requests)
    | .undefined, limits => some (limits, limits)
    | requests, limits => some (requests, limits)

/-- Whether one side of what a job declares leaves that of the agent as it is. -/
def shapeSideMatches (declared : Json) (resolved : Option ResolvedSpec) : Bool :=
  match resolved with
  | none => true
  | some resolved =>
    if !declared.truthy then true
    else
      let cpus := declared.prop (js "cpus")
      let memory := declared.prop (js "memory")
      if ¬ cpus.strictEq .undefined ∧ ¬ cpus.strictEq (.num resolved.cpus) then false
      else if memory.strictEq .undefined then true
      else
        match parseMemoryString parseFloat memory with
        -- What cannot be read is left to the start of the agent.
        | none => true
        | some memBytes => memBytes = resolved.memBytes

/-! ## The manager -/

/-- What the scaler manager has recorded of the agents it has started. -/
structure ScalerManager where
  /-- The scaler of each agent that has registered. -/
  managedAgentIndex : String → Option String
  /-- The agents that were started ahead of time. -/
  warmAgents : String → Bool
  boundAgents : String → Option ScalerBinding
  reservations : String → Option ReservationEntry

namespace ScalerManager

variable (manager : ScalerManager) (agentId : String)

def isPrespawnedAgent : Bool := manager.warmAgents agentId

/-- Whether the shape of an agent that was started ahead of time is the one that a job declares. -/
def prespawnedShapeFits (resources : Json) : Bool :=
  if !manager.isPrespawnedAgent agentId then true
  else
    match mirrorRequestsLimits resources, manager.reservations agentId with
    | some (requests, limits), some reservation =>
      if !shapeSideMatches parseFloat requests (some reservation.requests) then false
      else shapeSideMatches parseFloat limits reservation.limits
    | _, _ => true

/-- An agent that was started for a job has the shape of the job. -/
theorem shapeFits_of_not_prespawned (h : manager.isPrespawnedAgent agentId = false) (resources : Json) :
    manager.prespawnedShapeFits parseFloat agentId resources := by
  rw [prespawnedShapeFits, h]
  rfl

/-- What the scaler knows about an agent; nothing of one it did not start. -/
def agentView : Option ScalerAgentView :=
  if (manager.managedAgentIndex agentId).isNone then none
  else some {
    binding := manager.boundAgents agentId
    prespawned := manager.isPrespawnedAgent agentId
    shapeFits := manager.prespawnedShapeFits parseFloat agentId
    shapeFits_of_not_prespawned := manager.shapeFits_of_not_prespawned parseFloat agentId }

end ScalerManager

end

/-! ## The fast path -/

/-- An agent of which `agentMayRefuse` does not hold runs every job. -/
theorem fast_path_sound (js : JsRuntime) (agent : FitAgent) (h : agent.agentMayRefuse js = false)
    (job : AgentFitJob) : agent.canAgentRunJob js job :=
  canAgentRunJob_of_not_agentMayRefuse job h

/-- An agent that the scaler has started for one job runs another one as well. -/
theorem fast_path_sound_bound :
    canAgentRunJob lowercaseRuntime
      { labels := ["linux", "kici:runtime:docker"]
        version := some "0.10.0"
        scalerManaged := true
        scaler := some ⟨some ⟨"job-1", false⟩, false, fun _ => true, fun _ _ => rfl⟩ }
      ⟨some "job-2", .undefined, .image⟩ :=
  fast_path_sound lowercaseRuntime _ (by
    simp [agentMayRefuse, isJobImageAgent, hasContainerRuntime, CONTAINER_RUNTIME_LABELS,
      JOB_IMAGE_RUNTIME_LABEL, runtimeLabel]) _

/-- An agent for which the drain asks nothing of the jobs can run them all, with what the scaler has
recorded of it. -/
theorem canAgentRunJob_of_agentFitFilterFor {js : JsRuntime} {parse : String → Json}
    {parseFloat : JsString → WithTop ℚ} {manager : ScalerManager} {e : AgentEntry}
    (h : agentFitFilterFor js ⟨parse, manager.agentView parseFloat⟩ e = none) (job : AgentFitJob) :
    (fitAgentFor e (manager.agentView parseFloat)).canAgentRunJob js job := by
  refine canAgentRunJob_of_not_agentMayRefuse job ?_
  rw [Bool.eq_false_iff]
  intro hrefuse
  rw [agentFitFilterFor, if_pos hrefuse] at h
  cases h

end Kici.Scaler
