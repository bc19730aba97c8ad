import Kici.Foundation.Except
import Kici.Queue.Drain

/-!
# The queue of a worker

A worker keeps the jobs that wait for an agent in its memory (`InMemoryJobQueue`), where the same
dispatcher works on them that works on the queue of a coordinator: the jobs that wait, those that an
agent has, and how often each was put back, in three maps, whose entries are in the order of their
insertion.

A job is handed out by a search in this order, for one whose labels and expressions an agent meets
(`matchesGate`).
-/

namespace Kici.Worker

structure InMemoryJobQueue where
  jobs : Table QueuedJob.id
  /-- The jobs handed to an agent. -/
  dispatched : Table QueuedJob.id
  /-- How often a job was put back. -/
  attempts : Table (Prod.fst : String × ℕ → String)
  /-- The jobs that are never handed out any more. -/
  stopped : List String

variable (js : JsRuntime)

/-- The labels, the exclusions and the gate of the agent. -/
def labelsMatch (agentLabels agentMandatoryLabels : List String) (job : QueuedJob) : Bool :=
  let labels := js.canonicalizeLabels agentLabels
  let gate := js.canonicalizeLabels agentMandatoryLabels
  job.runsOnLabels.all (labels.contains ·) && !job.excludeLabels.any (labels.contains ·) &&
    gate.all (job.runsOnLabels.contains ·)

def matchesGate (agentLabels agentMandatoryLabels : List String) (job : QueuedJob) :
    Except RegExpError Bool :=
  if !labelsMatch js agentLabels agentMandatoryLabels job then .ok false
  else JobQueue.jobPatternsSatisfiedBy js job (js.canonicalizeLabels agentLabels)

/-- A job as it is enqueued, with its selectors in canonical form. -/
def queuedJobOf (job : QueuedJobInput) (createdAt : ℕ) : QueuedJob where
  id := job.jobId
  runId := job.runId
  jobName := job.jobName
  runsOnLabels := js.canonicalizeLabels job.runsOnLabels
  runsOnPatterns := job.runsOnPatterns.map js.canonicalizeMatcher
  excludeLabels := js.canonicalizeLabels job.excludeLabels
  excludePatterns := job.excludePatterns.map js.canonicalizeMatcher
  status := .pending
  createdAt
  expiresAt := none
  pinnedAgentId := job.pinnedAgentId
  jobConfig := job.jobConfig

namespace InMemoryJobQueue

def empty : InMemoryJobQueue where
  jobs := .empty _
  dispatched := .empty _
  attempts := .empty _
  stopped := []

variable (queue : InMemoryJobQueue)

def enqueue (job : QueuedJobInput) (now : ℕ) : InMemoryJobQueue :=
  { queue with jobs := queue.jobs.put (queuedJobOf js job now) }

/-- Whether the job may be handed out at all. -/
def waits (job : QueuedJob) : Bool := job.status = .pending && !queue.stopped.contains job.id

/-- The job goes to an agent. -/
def take (job : QueuedJob) : InMemoryJobQueue :=
  { queue with
    jobs := queue.jobs.delete job.id
    dispatched := queue.dispatched.put { job with status := .dispatched } }

/-- The job that was found, if one was, goes to an agent. -/
def taken : Option QueuedJob → Option QueuedJob × InMemoryJobQueue
  | some job => (some job, queue.take job)
  | none => (none, queue)

/-- Hand out the first job in the order of insertion that the test admits. -/
def takeFirst (admits : QueuedJob → Except RegExpError Bool) :
    Except RegExpError (Option QueuedJob × InMemoryJobQueue) :=
  (firstAdmitted (fun job => if queue.waits job then admits job else .ok false) queue.jobs.rows).map
    queue.taken

def dequeueForLabels (agent : AgentQuery) (canServe : Option (QueuedJob → Bool)) :
    Except RegExpError (Option QueuedJob × InMemoryJobQueue) :=
  queue.takeFirst fun job => do
    return (← matchesGate js agent.agentLabels agent.agentMandatoryLabels job) &&
      canServe.all fun canServe => canServe job

def dequeueById (jobId : String) (agentLabels agentMandatoryLabels : List String) :
    Except RegExpError (Option QueuedJob × InMemoryJobQueue) :=
  match queue.jobs.lookup jobId with
  | none => .ok (none, queue)
  | some job =>
    if !queue.waits job then .ok (none, queue)
    else
      (matchesGate js agentLabels agentMandatoryLabels job).map fun matched =>
        queue.taken (if matched then some job else none)

/-- Whether the agent that a job is pinned to may have it. -/
def pinAdmits (agentLabels : Option (List String)) (job : QueuedJob) : Except RegExpError Bool :=
  match agentLabels with
  | some labels => JobQueue.jobPatternsSatisfiedBy js job (js.canonicalizeLabels labels)
  | none => .ok true

def dequeueByPinnedAgent (agentId : String) (agentLabels : Option (List String)) :
    Except RegExpError (Option QueuedJob × InMemoryJobQueue) :=
  queue.takeFirst fun job => if job.pinnedAgentId = some agentId then pinAdmits js agentLabels job
    else .ok false

def getPendingJobs : List QueuedJob := queue.jobs.rows.filter queue.waits

def getDepth : ℕ := queue.getPendingJobs.length

def listPending (limit : ℕ) : List QueuedJob := queue.getPendingJobs.take limit

def markFailed (jobId : String) : InMemoryJobQueue where
  jobs := queue.jobs.delete jobId
  dispatched := queue.dispatched.delete jobId
  attempts := queue.attempts.delete jobId
  stopped := queue.stopped.filter (· ≠ jobId)

def markCompleted (jobId : String) : InMemoryJobQueue :=
  { queue with
    dispatched := queue.dispatched.delete jobId
    attempts := queue.attempts.delete jobId
    stopped := queue.stopped.filter (· ≠ jobId) }

def attemptsOf (jobId : String) : ℕ := ((queue.attempts.lookup jobId).map Prod.snd).getD 0

/-- Put a job back that an agent has; the number of times, unless there is none or it is stopped. -/
def requeue (jobId : String) (countAttempt : Bool) : Option ℕ × InMemoryJobQueue :=
  match queue.dispatched.lookup jobId with
  | none => (none, queue)
  | some job =>
    if queue.stopped.contains jobId then (none, queue.markFailed jobId)
    else
      let count := queue.attemptsOf jobId + if countAttempt then 1 else 0
      (some count, { queue with
        dispatched := queue.dispatched.delete jobId
        jobs := queue.jobs.put { job with status := .pending }
        attempts := queue.attempts.put (jobId, count) })

end InMemoryJobQueue

end Kici.Worker
