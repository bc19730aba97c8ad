import Kici.Agent.Registry
import Kici.Foundation.Lists
import Kici.Foundation.System

/-!
# How agents get jobs

What a coordinator does to give jobs to its agents, and to take them back (`claimSystem`):

* `dispatch` gives a new job to an agent that its labels find, or to the one it is pinned to
  (`dispatchPinned`);
* an agent that is free takes a job of the queue (`onAgentAvailable`, `drainForAgent`);
* a job of the queue is claimed for an agent by its id (`claimBoundJob`): for the agent that was
  started for it (`dispatchBoundJob`), for one that is free when the job is put back (`redispatch`),
  or for one that is found for a job that waits (`redrivePendingToConnectedAgents`);
* a job that an agent was given is over (`onJobComplete`), rejected (`onJobRejected`), or not
  acknowledged in time (`handleAckExpiry`, `sweepExpiredAckDeadlines`), and an agent disconnects
  (`onAgentDisconnect`).

Any number of calls are under way, and each waits for the answer to a statement (`ClaimCall`): of
the database, of the roster, which knows the hosts that are about to reboot, or of the callback that
sends a job. The answers are any, and come in any order.

An agent that registers again has a new entry; a call that found the old one keeps it.
-/

namespace Kici

open Function

/-- The ways in which a job gets to an agent. -/
inductive ClaimPath
  | dispatch
  | dispatchPinned (selectors : AgentSelectors)
  | drainForAgent
  | dispatchBoundJob
  | redispatch
  | redrivePendingToConnectedAgents

/-- A call of the dispatcher that waits. The agents were found at the step `foundAt`, and the slot
of the one that is chosen was taken at the step `takenAt`. -/
inductive ClaimCall
  /-- The roster is asked about the agents that are left (`rest`); those that passed are not about to
  reboot. -/
  | filterRebootPending (path : ClaimPath) (foundAt : ℕ) (rest passed : List String)
  /-- The roster is asked about an agent with its entry, or has answered. -/
  | isRebootPending (path : ClaimPath) (foundAt : ℕ) (agentId : String) (agent : ℕ)
    (answer : Option Bool)
  /-- The row of a job is inserted, or one is claimed. -/
  | claim (path : ClaimPath) (foundAt takenAt : ℕ) (agentId : String)
  | markDispatched (agentId jobId : String)
  | deliver (agentId jobId : String)
  /-- What is left to do does not concern the agent. -/
  | settle
  | requeueIfAwaitingAck (agentId jobId : String)
  /-- The jobs of an agent with its entry are triaged. -/
  | onAgentDisconnect (agentId : String) (agent : Option ℕ)

/-- The answer to a statement. -/
inductive ClaimAnswer
  /-- The roster reads a flag. -/
  | read
  /-- One of the agents that passed is selected. -/
  | select (agentId : String) (now : ℕ)
  /-- The call goes on with the flag. -/
  | resume (now : ℕ)
  /-- Nothing came of it: no job to claim, a duplicate, a run that has stopped, no agent that suits,
  an acknowledgement that has come, or a statement that failed. -/
  | nothing
  | job (jobId : String)
  | ok
  /-- The job is refused, or its secrets cannot be opened here. -/
  | refused
  | throws

/-- What was claimed for an agent, with the times since when it drained and its host was about to
reboot. -/
structure Claimed where
  agentId : String
  jobId : String
  foundAt : ℕ
  takenAt : ℕ
  drainingSince : Option ℕ
  rebootPendingSince : Option ℕ

structure ClaimState where
  /-- The number of steps so far. -/
  clock : ℕ := 0
  /-- The entries of all connections so far. -/
  objects : List AgentEntry := []
  /-- The agents that are registered, with their entries. -/
  agents : String → Option ℕ := fun _ => none
  /-- Since when the hosts of agents are about to reboot. -/
  rebootPendingSince : String → Option ℕ := fun _ => none
  /-- The coordinator claims nothing. -/
  isDraining : Bool := false
  agentJobs : String → List String := fun _ => []
  jobToAgent : String → Option String := fun _ => none
  calls : List ClaimCall := []
  /-- What was claimed. -/
  claimed : List Claimed := []

inductive ClaimAction
  | register (entry : AgentEntry)
  | unregister (agentId : String)
  | markDraining (agentId : String)
  | markDrainReported (agentId : String)
  | clearDraining (agentId : String)
  | setRebootPending (agentId : String)
  | clearRebootPending (agentId : String)
  | setDraining (isDraining : Bool)
  | clearBusyHeld (agentId : String)
  | dispatch (selectors : AgentSelectors) (now : ℕ)
  | dispatchPinned (selectors : AgentSelectors) (agentId : String)
  | onAgentAvailable (agentId : String)
  | dispatchBoundJob (agentId : String) (now : ℕ)
  | redispatch (selectors : AgentSelectors) (agentId : String) (now : ℕ)
  | redrive (selectors : AgentSelectors) (now : ℕ)
  | redrivePinned (agentId : String) (now : ℕ)
  /-- The statement of a call is answered. -/
  | next (k : ℕ) (answer : ClaimAnswer)
  | onJobAcked (agentId jobId : String) (now : ℕ)
  | onJobComplete (agentId jobId : String)
  | onJobRejected (agentId jobId : String) (busy : Bool) (now : ℕ)
  /-- The acknowledgement of a job has not come in time. -/
  | handleAckExpiry (agentId jobId : String)
  | onAgentDisconnect (agentId : String)
  /-- A triage stops the tracking of a job. -/
  | untrackJob (k : ℕ) (jobId : String)

namespace ClaimState

variable (js : JsRuntime) (s : ClaimState)

/-- The entry of an agent that is registered. -/
def get (agentId : String) : Option AgentEntry := (s.agents agentId).bind (s.objects[·]?)

/-- The entries of the agents that are registered. -/
def entries : List AgentEntry :=
  (List.range s.objects.length).filterMap fun agent =>
    s.objects[agent]?.filter fun e => s.agents e.agentId = some agent

/-- Since when an agent that is registered drains. -/
def drainingSince (agentId : String) : Option ℕ := (s.get agentId).bind (·.drainingSince)

def modify (agentId : String) (f : AgentEntry → AgentEntry) : ClaimState :=
  match s.agents agentId with
  | some agent => { s with objects := s.objects.modify agent f }
  | none => s

def addCall (call : ClaimCall) : ClaimState := { s with calls := s.calls ++ [call] }

/-! ## The registry -/

/-- A new connection of an agent. -/
def register (entry : AgentEntry) : ClaimState :=
  { s with
    objects := s.objects ++ [{ entry with
      drainingSince := none
      drainReported := false
      busyHeldUntil := none
      activeJobs := 0 }]
    agents := update s.agents entry.agentId (some s.objects.length) }

def unregister (agentId : String) : ClaimState :=
  { s with agents := update s.agents agentId none }

/-! ## The roster -/

def setRebootPending (agentId : String) : ClaimState :=
  { s with rebootPendingSince :=
      update s.rebootPendingSince agentId ((s.rebootPendingSince agentId).or (some s.clock)) }

/-- The flag is cleared, or its time is over. -/
def clearRebootPending (agentId : String) : ClaimState :=
  { s with rebootPendingSince := update s.rebootPendingSince agentId none }

/-! ## Slots -/

def incrementActiveJobs (agentId : String) : ClaimState := s.modify agentId (·.incrementActiveJobs)

def decrementActiveJobs (agentId : String) : ClaimState := s.modify agentId (·.decrementActiveJobs)

/-! ## Tracking -/

def trackJobForAgent (agentId jobId : String) : ClaimState :=
  { s with
    jobToAgent := update s.jobToAgent jobId (some agentId)
    agentJobs := update s.agentJobs agentId
      (if jobId ∈ s.agentJobs agentId then s.agentJobs agentId else s.agentJobs agentId ++ [jobId]) }

def untrackJob (agentId jobId : String) : ClaimState :=
  { s with
    jobToAgent := update s.jobToAgent jobId none
    agentJobs := update s.agentJobs agentId ((s.agentJobs agentId).filter (· ≠ jobId)) }

/-- Free the slot and the tracking of a claim. -/
def releaseClaimAccounting (agentId jobId : String) : ClaimState :=
  (s.decrementActiveJobs agentId).untrackJob agentId jobId

/-- Free them unless something else has. -/
def releaseTrackedClaim (agentId jobId : String) : ClaimState :=
  if s.jobToAgent jobId = some agentId then s.releaseClaimAccounting agentId jobId else s

def onJobComplete (agentId jobId : String) : ClaimState :=
  let s := if jobId ∈ s.agentJobs agentId then s.modify agentId (·.clearBusyHeld) else s
  (s.decrementActiveJobs agentId).untrackJob agentId jobId

def onJobRejected (agentId jobId : String) (busy : Bool) (now : ℕ) : ClaimState :=
  if jobId ∈ s.agentJobs agentId then
    let s := if busy then s.modify agentId (·.markBusyHeld now) else s
    ((s.decrementActiveJobs agentId).untrackJob agentId jobId).addCall .settle
  else s

/-- An agent that has accepted a job is not held any more if the time of its hold is over. -/
def noteJobAccepted (agentId jobId : String) (now : ℕ) : ClaimState :=
  if s.jobToAgent jobId = some agentId then s.modify agentId (·.clearExpiredBusyHold now) else s

/-! ## Disconnects -/

def onAgentDisconnect (agentId : String) : ClaimState :=
  if s.agentJobs agentId = [] then s.unregister agentId
  else s.addCall (.onAgentDisconnect agentId (s.agents agentId))

/-- Drop an agent that has not acknowledged a job: its other jobs are triaged. -/
def dropUnacknowledgingAgent (agentId : String) : ClaimState :=
  (s.onAgentDisconnect agentId).unregister agentId

/-! ## Claims -/

/-- Take a slot of an agent, and claim a job for it. -/
def takeSlot (path : ClaimPath) (foundAt : ℕ) (agentId : String) : ClaimState × Option ClaimCall :=
  (s.incrementActiveJobs agentId, some (.claim path foundAt s.clock agentId))

def claimBoundJob (path : ClaimPath) (foundAt : ℕ) (agentId : String) (now : ℕ) :
    ClaimState × Option ClaimCall :=
  match s.get agentId with
  | none => (s, none)
  | some e => if e.agentHasFreeSlot now && !s.isDraining then s.takeSlot path foundAt agentId
    else (s, none)

/-- Start a call with its first step. -/
def start (result : ClaimState × Option ClaimCall) : ClaimState :=
  { result.1 with calls := result.1.calls ++ result.2.toList }

/-- Find the agents for a job, and ask the roster about them. -/
def findFor (path : ClaimPath) (selectors : AgentSelectors) (now : ℕ) : Option ClaimState :=
  match findAvailable js now s.entries selectors with
  | .ok found => some (s.addCall (.filterRebootPending path s.clock (found.map (·.agentId)) []))
  | .error _ => some s

/-- The agent that is pinned is found, and the roster is asked about it. -/
def findPinned (path : ClaimPath) (agentId : String) : ClaimState :=
  match s.agents agentId with
  | some agent => s.addCall (.isRebootPending path s.clock agentId agent none)
  | none => s

def onAgentAvailable (agentId : String) : ClaimState :=
  if (s.drainingSince agentId).isSome || s.isDraining then s else s.findPinned .drainForAgent agentId

/-- A job that waits and is pinned to an agent. -/
def redrivePinned (agentId : String) (now : ℕ) : ClaimState :=
  match s.get agentId with
  | some e =>
    if e.agentHasFreeSlot now && !s.isDraining then s.findPinned .redrivePendingToConnectedAgents
      agentId else s
  | none => s

/-- A job that was put back goes to one of the agents that are found. -/
def redispatch (selectors : AgentSelectors) (agentId : String) (now : ℕ) : Option ClaimState :=
  match findAvailable js now s.entries selectors with
  | .ok found =>
    if agentId ∈ found.map (·.agentId) then some
      (start (s.claimBoundJob .redispatch s.clock agentId now)) else none
  | .error _ => none

/-- Go on with an agent once the roster has answered. -/
def resumeWith (path : ClaimPath) (foundAt : ℕ) (agentId : String) (e : AgentEntry)
    (rebootPending : Bool) (now : ℕ) : ClaimState × Option ClaimCall :=
  match path with
  | .dispatchPinned selectors =>
    match agentSatisfies js e selectors with
    | .ok true =>
      if !s.isDraining && !rebootPending && e.agentHasFreeSlot now then s.takeSlot path foundAt
        agentId else (s, none)
    | _ => (s, none)
  | .drainForAgent => if e.agentHasFreeSlot now && !rebootPending then s.takeSlot path foundAt agentId
    else (s, none)
  | _ => if rebootPending then (s, none) else s.claimBoundJob path foundAt agentId now

/-- Go on with an agent that passed. -/
def selectFor (path : ClaimPath) (foundAt : ℕ) (agentId : String) (now : ℕ) :
    ClaimState × Option ClaimCall :=
  match path with
  | .dispatch => s.takeSlot path foundAt agentId
  | _ => s.claimBoundJob path foundAt agentId now

/-- A job was claimed for an agent, in a row that was inserted or in one of the queue. -/
def claimedJob (path : ClaimPath) (foundAt takenAt : ℕ) (agentId jobId : String) :
    ClaimState × ClaimCall :=
  let s := { s with claimed := s.claimed ++ [{
    agentId
    jobId
    foundAt
    takenAt
    drainingSince := s.drainingSince agentId
    rebootPendingSince := s.rebootPendingSince agentId }] }
  match path with
  | .dispatch | .dispatchPinned _ => (s.trackJobForAgent agentId jobId, .deliver agentId jobId)
  | _ => (s, .markDispatched agentId jobId)

/-- The state after the statement of a call is answered, and the call then. -/
def callNext : ClaimCall → ClaimAnswer → Option (ClaimState × Option ClaimCall)
  | .filterRebootPending path foundAt (agentId :: rest) passed, .read =>
    some (s, some (.filterRebootPending path foundAt rest
      (if (s.rebootPendingSince agentId).isSome then passed else passed ++ [agentId])))
  | .filterRebootPending path foundAt [] passed, .select agentId now =>
    if agentId ∈ passed then some (s.selectFor path foundAt agentId now) else none
  | .filterRebootPending _ _ [] _, .nothing => some (s, none)
  | .isRebootPending path foundAt agentId agent none, .read =>
    some (s, some (.isRebootPending path foundAt agentId agent
      (some (s.rebootPendingSince agentId).isSome)))
  | .isRebootPending path foundAt agentId agent (some rebootPending), .resume now =>
    match s.objects[agent]? with
    | some e => some (s.resumeWith js path foundAt agentId e rebootPending now)
    | none => none
  | .claim _ _ _ agentId, .nothing => some (s.decrementActiveJobs agentId, none)
  | .claim path foundAt takenAt agentId, .job jobId =>
    let (t, call) := s.claimedJob path foundAt takenAt agentId jobId
    some (t, some call)
  | .markDispatched agentId jobId, .ok =>
    some (s.trackJobForAgent agentId jobId, some (.deliver agentId jobId))
  | .markDispatched agentId _, .throws => some (s.decrementActiveJobs agentId, some .settle)
  | .deliver _ _, .ok => some (s, some .settle)
  | .deliver agentId jobId, .refused => some (s.releaseClaimAccounting agentId jobId, some .settle)
  | .deliver agentId jobId, .throws => some (s.releaseTrackedClaim agentId jobId, some .settle)
  | .settle, .ok => some (s, none)
  | .requeueIfAwaitingAck _ _, .nothing => some (s, none)
  | .requeueIfAwaitingAck agentId jobId, .ok =>
    some ((s.releaseClaimAccounting agentId jobId).dropUnacknowledgingAgent agentId, some .settle)
  | .onAgentDisconnect agentId agent, .ok =>
    some (if s.agents agentId = agent then s.unregister agentId else s, none)
  | _, _ => none

/-- The step of an action, but for the clock. -/
def act : ClaimAction → Option ClaimState
  | .register entry => some (s.register entry)
  | .unregister agentId => some (s.unregister agentId)
  | .markDraining agentId => some (s.modify agentId (·.markDraining s.clock))
  | .markDrainReported agentId => some (s.modify agentId (·.markDrainReported s.clock))
  | .clearDraining agentId => some (s.modify agentId (·.clearDraining))
  | .setRebootPending agentId => some (s.setRebootPending agentId)
  | .clearRebootPending agentId => some (s.clearRebootPending agentId)
  | .setDraining isDraining => some { s with isDraining }
  | .clearBusyHeld agentId => some (s.modify agentId (·.clearBusyHeld))
  | .dispatch selectors now => if s.isDraining then some s else s.findFor js .dispatch selectors now
  | .dispatchPinned selectors agentId => some (s.findPinned (.dispatchPinned selectors) agentId)
  | .onAgentAvailable agentId => some (s.onAgentAvailable agentId)
  | .dispatchBoundJob agentId now => some (start (s.claimBoundJob .dispatchBoundJob s.clock agentId now))
  | .redispatch selectors agentId now => s.redispatch js selectors agentId now
  | .redrive selectors now =>
    if s.isDraining then some s else s.findFor js .redrivePendingToConnectedAgents selectors now
  | .redrivePinned agentId now => some (s.redrivePinned agentId now)
  | .next k answer => do
    let call ← s.calls[k]?
    let (t, next) ← s.callNext js call answer
    return { t with calls := t.calls.take k ++ next.toList ++ t.calls.drop (k + 1) }
  | .onJobAcked agentId jobId now => some (s.noteJobAccepted agentId jobId now)
  | .onJobComplete agentId jobId => some (s.onJobComplete agentId jobId)
  | .onJobRejected agentId jobId busy now => some (s.onJobRejected agentId jobId busy now)
  | .handleAckExpiry agentId jobId => some (s.addCall (.requeueIfAwaitingAck agentId jobId))
  | .onAgentDisconnect agentId => some (s.onAgentDisconnect agentId)
  | .untrackJob k jobId =>
    match s.calls[k]? with
    | some (.onAgentDisconnect agentId _) => some (s.untrackJob agentId jobId)
    | _ => none

def step (a : ClaimAction) : Option ClaimState :=
  (s.act js a).map fun t => { t with clock := s.clock + 1 }

end ClaimState

/-- A coordinator, to which no agent is connected at first. -/
def claimSystem (js : JsRuntime) : System ClaimState ClaimAction where
  init := {{}}
  step := ClaimState.step js

end Kici
