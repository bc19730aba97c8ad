import Kici.Events.EventStore
import Kici.Foundation.Attempt
import Kici.Foundation.Except
import Kici.Trigger.Matcher

/-!
# Subscriptions to events

An event that a node has leased goes to the registered workflows that match it, one after the other
(`processSubscriptions`). A failed run is appended to the batch window of a workflow that collects
failures (`bufferBatchDecisions`), and all else is dispatched (`onEventMatched`). Where a call
throws, the loop ends, and the event is leased again later and goes to all of them anew.

Nothing is noted of the registrations that are done. So each is reached once if and only if every
attempt that failed did so ahead of all deliveries (`delivered_once_iff`).
-/

namespace Kici.Events

open Computation

/-- What is read of an event to find its subscribers. -/
structure StoredEvent where
  eventName : JsString
  payload : List (JsString × Json) := []
  sourceRepo : Option JsString := none
  sourceRoutingKey : Option JsString := none
  sourceRunId : Option JsString := none
  targetRepos : List JsString := []

structure RegisteredWorkflow where
  id : JsString
  repoIdentifier : JsString
  lockEntry : LockWorkflow

/-- The calls that may throw, for a registration. -/
inductive DeliveryCall
  | isTrusted (registrationId : JsString)
  | isFailureLifecycleRun (registrationId : JsString)
  | openOrGetBatchWindow (registrationId : JsString)
  | appendBatchItem (registrationId : JsString)
  | onEventMatched (registrationId : JsString)
  deriving DecidableEq

/-- The calls by which the event reaches a subscriber. -/
def DeliveryCall.delivers : DeliveryCall → Bool
  | .appendBatchItem _ | .onEventMatched _ => true
  | .isTrusted _ | .isFailureLifecycleRun _ | .openOrGetBatchWindow _ => false

inductive DeliveryError
  | matching (error : MatchError)
  | thrown (message : JsString)

abbrev Delivery := Computation DeliveryCall DeliveryError

/-- The registrations of a type of triggers, and what the database answers about an event. -/
structure Router where
  rt : MatchRuntime
  getByEventType : JsString → List RegisteredWorkflow
  distinct : ∀ type, ((getByEventType type).map (·.id)).Nodup
  trusted : StoredEvent → RegisteredWorkflow → Bool
  failureLifecycle : StoredEvent → Bool

/-- How many registrations the event was dispatched to, and what became of it else. -/
structure Tally where
  dispatched : ℕ := 0
  buffered : Bool := false
  blocked : Bool := false

def Tally.result (tally : Tally) : EventMatchResult :=
  if 0 < tally.dispatched then ⟨.matched, tally.dispatched⟩
  else if tally.buffered then ⟨.buffered, 0⟩
  else if tally.blocked then ⟨.trustBlocked, 0⟩
  else ⟨.noTriggerMatch, 0⟩

/-- A text that is there and not empty. -/
def present (s : Option JsString) : Bool := s.any (· ≠ [])

namespace StoredEvent

variable (event : StoredEvent)

def prop (key : JsString) : Json := (event.payload.lookup key).getD .undefined

def isSystemEvent : Bool := event.eventName.startsWith (js "__")

def triggerType : JsString :=
  if event.eventName = js "__schedule_fire" then js "schedule"
  else if event.isSystemEvent then event.eventName.drop 2
  else js "kici_event"

def textOrUndefined (s : Option JsString) : Json := (s.map Json.str).getD .undefined

def simulated : SimulatedEvent where
  type := event.triggerType
  payload :=
    if event.isSystemEvent then event.payload
    else
      [(js "eventName", .str event.eventName), (js "payload", .obj event.payload),
        (js "sourceRepo", textOrUndefined event.sourceRepo),
        (js "sourceRoutingKey", textOrUndefined event.sourceRoutingKey)]
  targetBranch := js "main"

def isFailedCompletion : Bool :=
  event.eventName = js "__workflow_complete" && (event.prop (js "status")).isStr (js "failed")

/-- Whether the trust in the source is asked for. -/
def asksTrust (reg : RegisteredWorkflow) : Bool :=
  present event.sourceRoutingKey && present event.sourceRepo && event.sourceRepo ≠
    some reg.repoIdentifier

/-- The registration an event was made for. -/
def targetRegistration : Option Json :=
  if event.eventName = js "__schedule_fire" || event.eventName = js "__workflows_failed_batch" then
    if (event.prop (js "registrationId")).truthy then some (event.prop (js "registrationId")) else none
  else none

end StoredEvent

/-- The matched trigger of a decision collects failures. -/
def RegisteredWorkflow.batches (reg : RegisteredWorkflow) (decision : WorkflowDecision) : Bool :=
  match decision.matchedTrigger.bind (reg.lockEntry.triggers[·]?.join) with
  | some trigger => trigger.type = js "workflows_failed_batch"
  | none => false

namespace Router

variable (router : Router) (event : StoredEvent)

def matchAllWorkflows (workflows : List LockWorkflow) : Except DeliveryError (List WorkflowDecision) :=
  (workflows.mapM (router.rt.matchWorkflowTriggers event.simulated)).mapError .matching

def isFailureLifecycleRun (reg : RegisteredWorkflow) : Delivery Bool :=
  if present event.sourceRunId then do
    call (.isFailureLifecycleRun reg.id)
    pure (router.failureLifecycle event)
  else pure false

/-- The lookup is made once for a registration. -/
def resolveSelfExcluded (reg : RegisteredWorkflow) : Option Bool → Delivery Bool
  | some excluded => pure excluded
  | none => router.isFailureLifecycleRun event reg

def bufferBatchFailure (reg : RegisteredWorkflow) : Delivery Unit := do
  call (.openOrGetBatchWindow reg.id)
  call (.appendBatchItem reg.id)

/-- The decisions that are to be dispatched, and how many were buffered. -/
def bufferLoop (reg : RegisteredWorkflow) :
    List WorkflowDecision → Option Bool → Delivery (List WorkflowDecision × ℕ)
  | [], _ => pure ([], 0)
  | decision :: decisions, selfExcluded =>
    if reg.batches decision then do
      let excluded ← router.resolveSelfExcluded event reg selfExcluded
      if excluded then bufferLoop reg decisions (some excluded)
      else do
        bufferBatchFailure reg
        let rest ← bufferLoop reg decisions (some excluded)
        pure (rest.1, rest.2 + 1)
    else do
      let rest ← bufferLoop reg decisions selfExcluded
      pure (decision :: rest.1, rest.2)

def bufferBatchDecisions (reg : RegisteredWorkflow) (matchedDecisions : List WorkflowDecision) :
    Delivery (List WorkflowDecision × ℕ) :=
  if event.isFailedCompletion then router.bufferLoop event reg matchedDecisions none
    else pure (matchedDecisions, 0)

def deliver (reg : RegisteredWorkflow) (tally : Tally) (matchedDecisions : List WorkflowDecision) :
    Delivery Tally :=
  if matchedDecisions.isEmpty then pure tally
  else do
    let buffered ← router.bufferBatchDecisions event reg matchedDecisions
    if buffered.1.isEmpty then pure { tally with buffered := tally.buffered || 0 < buffered.2 }
    else do
      call (.onEventMatched reg.id)
      pure { tally with
        buffered := tally.buffered || 0 < buffered.2
        dispatched := tally.dispatched + 1 }

/-- The source of an event is trusted, or need not be. -/
def checkTrust (reg : RegisteredWorkflow) : Delivery Bool :=
  if event.asksTrust reg then do
    call (.isTrusted reg.id)
    pure (router.trusted event reg)
  else pure true

def processRegistration (reg : RegisteredWorkflow) (tally : Tally) : Delivery Tally := do
  let trusted ← router.checkTrust event reg
  if trusted then do
    let decisions ← ofExcept (router.matchAllWorkflows event [reg.lockEntry])
    router.deliver event reg tally (decisions.filter (·.matched))
  else pure { tally with blocked := true }

def processRegistrations : List RegisteredWorkflow → Tally → Delivery Tally
  | [], tally => pure tally
  | reg :: regs, tally => do
    let tally ← router.processRegistration event reg tally
    processRegistrations regs tally

/-- The registrations an event goes to, or why there are none. -/
def candidates : Except EventMatchOutcome (List RegisteredWorkflow) :=
  let registered := router.getByEventType event.triggerType
  let targeted := registered.filter fun reg => event.targetRegistration.all (·.isStr reg.id)
  if targeted.isEmpty then .error .noRegistration
  else if event.targetRepos.isEmpty then .ok targeted
  else
    let targets := targeted.filter fun reg => reg.repoIdentifier ∈ event.targetRepos
    if targets.isEmpty then .error .noTargetRepo else .ok targets

def processSubscriptions : Delivery EventMatchResult :=
  match router.candidates event with
  | .error outcome => pure ⟨outcome, 0⟩
  | .ok regs => do
    let tally ← router.processRegistrations event regs {}
    pure tally.result

end Router

end Kici.Events
