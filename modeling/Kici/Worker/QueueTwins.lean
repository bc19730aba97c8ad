import Kici.Queue.Dequeue
import Kici.Worker.InMemoryJobQueue

/-!
# A worker and a coordinator

The same calls are made one at a time on the queue of a worker and on the queue of a coordinator
(`twinSystem`), whose rows never expire and belong to runs that have not stopped, at most ten of
them pending. The clock is read anew for each call, and jobs have new ids. What the two queues
answer is kept (`TwinState.answers`).
-/

namespace Kici.Worker

open JobQueue

inductive QueueOp
  | enqueue (job : QueuedJobInput)
  | insertDispatched (job : QueuedJobInput) (agentId : String)
  | dequeueForLabels (agent : AgentQuery) (canServe : Option (QueuedJob → Bool))
  | dequeueById (jobId : String) (agentLabels agentMandatoryLabels : List String)
    (claimingAgentId : Option String)
  | dequeueByPinnedAgent (agentId : String) (agentLabels : Option (List String))
  | markFailed (jobId : String)
  | markCompleted (jobId : String)
  | requeue (jobId : String) (countAttempt : Bool)
  | listPending (limit : ℕ)
  | getDepth

inductive QueueAnswer
  | done
  /-- The id of the job, or `null`. -/
  | job (jobId : Option String)
  | inserted (jobId : String) (inserted : Bool)
  | attempts (count : Option ℕ)
  | jobs (jobIds : List String)
  | depth (count : ℕ)
  | threw
  deriving DecidableEq

/-- The queue of a coordinator with its table, and the depth that was read last with the time it is
good for. -/
structure CoordinatorQueue where
  queue : JobQueue
  db : Db
  depthCache : Option (ℕ × ℕ)
  maxDepth : ℕ

variable (js : JsRuntime) (order : OrderBy DispatchRow.createdAt)

/-- What a dequeue answers. -/
def jobAnswer {σ : Type} : Except RegExpError (Option QueuedJob × σ) → QueueAnswer
  | .ok (job, _) => .job (job.map QueuedJob.id)
  | .error _ => .threw

/-- The queue after a dequeue, which leaves it as it was if it throws. -/
def queueAfter {σ : Type} (queue : σ) : Except RegExpError (Option QueuedJob × σ) → σ
  | .ok (_, queue) => queue
  | .error _ => queue

/-! ## The worker -/

def InMemoryJobQueue.call (queue : InMemoryJobQueue) (now : ℕ) : QueueOp → QueueAnswer × InMemoryJobQueue
  | .enqueue job => (.job (some job.jobId), queue.enqueue js job now)
  | .insertDispatched job _ => (.inserted job.jobId true, queue)
  | .dequeueForLabels agent canServe =>
    let taken := queue.dequeueForLabels js agent canServe
    (jobAnswer taken, queueAfter queue taken)
  | .dequeueById jobId agentLabels agentMandatoryLabels _ =>
    let taken := queue.dequeueById js jobId agentLabels agentMandatoryLabels
    (jobAnswer taken, queueAfter queue taken)
  | .dequeueByPinnedAgent agentId agentLabels =>
    let taken := queue.dequeueByPinnedAgent js agentId agentLabels
    (jobAnswer taken, queueAfter queue taken)
  | .markFailed jobId => (.done, queue.markFailed jobId)
  | .markCompleted jobId => (.done, queue.markCompleted jobId)
  | .requeue jobId countAttempt =>
    let requeued := queue.requeue jobId countAttempt
    (.attempts requeued.1, requeued.2)
  | .listPending limit => (.jobs ((queue.listPending limit).map QueuedJob.id), queue)
  | .getDepth => (.depth queue.getDepth, queue)

/-! ## The coordinator -/

namespace CoordinatorQueue

variable (coord : CoordinatorQueue) (now : ℕ)

def withDb (db : Db) : CoordinatorQueue := { coord with db }

/-- The rows that are pending. -/
def pending : List DispatchRow := coord.db.dispatchQueue.rows.filter fun row => row.status = .pending

/-- The depth, which is read again after a second. -/
def getDepth : ℕ × CoordinatorQueue :=
  match coord.depthCache with
  | some (count, expiresAt) =>
    if now < expiresAt then (count, coord)
    else (coord.pending.length, { coord with depthCache := some (coord.pending.length, now + 1000) })
  | none => (coord.pending.length, { coord with depthCache := some (coord.pending.length, now + 1000) })

def enqueue (job : QueuedJobInput) : QueueAnswer × CoordinatorQueue :=
  let depth := coord.getDepth now
  if coord.maxDepth ≤ depth.1 then (.threw, depth.2)
  else (.job (some job.jobId),
    { coord with db := JobQueue.enqueue js coord.db now job 0, depthCache := none })

def insertDispatched (job : QueuedJobInput) (agentId : String) : QueueAnswer × CoordinatorQueue :=
  if (coord.db.row? job.jobId).isSome then (.inserted job.jobId false, coord)
  else (.inserted job.jobId true,
    coord.withDb (JobQueue.insertDispatched js coord.queue coord.db now job agentId))

def dequeueByPinnedAgent (agentId : String) (agentLabels : Option (List String)) :
    Except RegExpError (Option QueuedJob × Db) :=
  claimFirst js coord.queue coord.db now { agentLabels := [], agentId := some agentId }
    (InMemoryJobQueue.pinAdmits js agentLabels) (coord.queue.selectPinned order coord.db now agentId)

def dequeueById (jobId : String) (agentLabels agentMandatoryLabels : List String)
    (claimingAgentId : Option String) : Except RegExpError (Option QueuedJob × Db) :=
  claimFirst js coord.queue coord.db now { agentLabels, agentId := claimingAgentId }
    (fun job => jobPatternsSatisfiedBy js job (js.canonicalizeLabels agentLabels))
    (coord.queue.selectById js coord.db now jobId agentLabels agentMandatoryLabels)

def requeue (jobId : String) (countAttempt : Bool) : Option ℕ × CoordinatorQueue :=
  let update := JobQueue.requeue coord.db jobId countAttempt none
  ((coord.db.dispatchQueue.returning update).head?.map DispatchRow.dispatchAttempts,
    { coord with db := coord.db.update update, depthCache := none })

def listPending (limit : ℕ) : List DispatchRow :=
  (oldestFirst order coord.db fun row =>
    row.status = .pending ∧ (∀ expiresAt ∈ row.expiresAt, coord.db.now ≤ expiresAt) ∧
      coord.queue.isDeferredUnopenable now row.id = false).take limit

def call : QueueOp → QueueAnswer × CoordinatorQueue
  | .enqueue job => coord.enqueue js now job
  | .insertDispatched job agentId => coord.insertDispatched js now job agentId
  | .dequeueForLabels agent canServe =>
    let taken := dequeueForLabels js coord.queue order coord.db now agent canServe
    (jobAnswer taken, coord.withDb (queueAfter coord.db taken))
  | .dequeueById jobId agentLabels agentMandatoryLabels claimingAgentId =>
    let taken := coord.dequeueById js now jobId agentLabels agentMandatoryLabels claimingAgentId
    (jobAnswer taken, coord.withDb (queueAfter coord.db taken))
  | .dequeueByPinnedAgent agentId agentLabels =>
    let taken := coord.dequeueByPinnedAgent js order now agentId agentLabels
    (jobAnswer taken, coord.withDb (queueAfter coord.db taken))
  | .markFailed jobId => (.done, coord.withDb (coord.db.update (markFailed jobId)))
  | .markCompleted jobId => (.done, coord.withDb (coord.db.update (markCompleted jobId)))
  | .requeue jobId countAttempt =>
    let requeued := coord.requeue jobId countAttempt
    (.attempts requeued.1, requeued.2)
  | .listPending limit => (.jobs ((coord.listPending order now limit).map DispatchRow.id), coord)
  | .getDepth =>
    let depth := coord.getDepth now
    (.depth depth.1, depth.2)

end CoordinatorQueue

/-! ## Both -/

structure TwinState where
  worker : InMemoryJobQueue
  coord : CoordinatorQueue
  /-- The last reading of the clock. -/
  now : ℕ
  /-- What the worker and the coordinator answered. -/
  answers : List (QueueAnswer × QueueAnswer)

/-- A call, and the reading of the clock. -/
structure TwinAction where
  op : QueueOp
  now : ℕ

/-- The jobs of the call are new. -/
def TwinState.fresh (s : TwinState) : QueueOp → Bool
  | .enqueue job => (s.coord.db.row? job.jobId).isNone
  | .insertDispatched job _ => (s.coord.db.row? job.jobId).isNone
  | _ => true

def TwinState.call (s : TwinState) (a : TwinAction) : TwinState :=
  let answered := s.worker.call js a.now a.op
  let answered' := s.coord.call js order a.now a.op
  { worker := answered.2
    coord := answered'.2
    now := a.now
    answers := s.answers ++ [(answered.1, answered'.1)] }

def twinStep (s : TwinState) (a : TwinAction) : Option TwinState :=
  if s.now < a.now && s.fresh a.op && decide ((s.call js order a).coord.pending.length ≤ 10) then
    some (s.call js order a)
  else none

/-- Two empty queues; no run stops, no job is put off, and ten jobs do not fill the queue. -/
def twinSystem : System TwinState TwinAction where
  init := {s | s.worker = .empty ∧ s.coord.db.dispatchQueue = Table.empty DispatchRow.id ∧
    (∀ run ∈ s.coord.db.executionRuns, run.2 ∉ TERMINAL_RUN_STATES ++ [ExecutionRunStatus.cancelling]) ∧
    s.coord.queue.deferredUnopenable = [] ∧ s.coord.depthCache = none ∧ 10 < s.coord.maxDepth ∧
      s.answers = []}
  step := twinStep js order

/-- The two have answered the same to each call. -/
def TwinState.Agree (s : TwinState) : Prop := ∀ answers ∈ s.answers, answers.1 = answers.2

end Kici.Worker
