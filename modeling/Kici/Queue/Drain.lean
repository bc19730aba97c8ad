import Kici.Queue.JobQueue

/-!
# Draining the queue

`JobQueue.dequeueForLabels` claims a job for an agent, in one of three ways:

* `claimPatternFree`: one statement, which claims the oldest row without regular
  expressions;
* `claimWithPatterns`: the ten oldest rows with regular expressions are read, and
  the first one whose expressions the agent satisfies is claimed by id;
* `claimWithPostFilter`: the ten oldest rows are read, and the first one that passes
  the expressions and the caller's own predicate is claimed by id.

The three share their `WHERE` (`drainBaseQuery`). The database orders rows by
`created_at`, and those created at the same time in any way (`OrderBy`).
-/

namespace Kici

/-- A job as the queue hands it out. -/
structure QueuedJob where
  id : String
  runId : String
  jobName : String
  runsOnLabels : List String
  runsOnPatterns : List LabelMatcher
  excludeLabels : List String
  excludePatterns : List LabelMatcher
  status : DispatchQueueStatus
  createdAt : ℕ
  expiresAt : Option ℕ
  pinnedAgentId : Option String
  jobConfig : String

/-- An agent that asks for a job. -/
structure AgentQuery where
  agentLabels : List String
  agentMandatoryLabels : List String := []
  agentId : Option String := none

namespace JobQueue

variable (js : JsRuntime) (q : JobQueue) (order : OrderBy DispatchRow.createdAt) (db : Db)
  (now : ℕ) (agent : AgentQuery)

/-- A row as a job, with its selectors in canonical form. -/
def rowToQueuedJob (row : DispatchRow) : QueuedJob where
  id := row.id
  runId := row.runId
  jobName := row.jobName
  runsOnLabels := js.canonicalizeLabels row.runsOnLabels
  runsOnPatterns := row.runsOnPatterns.map js.canonicalizeMatcher
  excludeLabels := js.canonicalizeLabels row.excludeLabels
  excludePatterns := row.excludePatterns.map js.canonicalizeMatcher
  status := row.status
  createdAt := row.createdAt
  expiresAt := row.expiresAt
  pinnedAgentId := row.pinnedAgentId
  jobConfig := row.jobConfig

/-- Whether labels satisfy every expression of a job and none of those it excludes. -/
def jobPatternsSatisfiedBy (job : QueuedJob) (labels : List String) :
    Except RegExpError Bool := do
  if ! (← job.runsOnPatterns.allM (js.matcherSatisfiedBy labels)) then return false
  if ← job.excludePatterns.anyM (js.matcherSatisfiedBy labels) then return false
  return true

/-- The condition on rows that all ways of draining share. -/
def drainBaseQuery (row : DispatchRow) : Bool :=
  let canonicalAgentLabels := js.canonicalizeLabels agent.agentLabels
  let canonicalGate := js.canonicalizeLabels agent.agentMandatoryLabels
  row.status = .pending ∧
    (∀ expiresAt ∈ row.expiresAt, db.now ≤ expiresAt) ∧
    (∀ l ∈ row.runsOnLabels, l ∈ canonicalAgentLabels) ∧
    (∀ l ∈ row.excludeLabels, l ∉ canonicalAgentLabels) ∧
    -- The empty agent id is no agent id.
    (row.pinnedAgentId = none ∨ agent.agentId ≠ some "" ∧ agent.agentId.isSome ∧
      row.pinnedAgentId = agent.agentId) ∧
    (canonicalGate ≠ [] → ∀ l ∈ canonicalGate, l ∈ row.runsOnLabels) ∧
    db.notTerminalRun row ∧
    q.isDeferredUnopenable now row.id = false

/-- Whether a row has no regular expressions. -/
def patternFree (row : DispatchRow) : Bool := row.runsOnPatterns = [] ∧ row.excludePatterns = []

/-- The rows of the queue that meet a condition, oldest first. -/
def oldestFirst (cond : DispatchRow → Bool) : List DispatchRow :=
  order.sort (db.dispatchQueue.rows.filter cond)

/-- The row `claimPatternFree` claims. -/
def patternFreeCandidate : Option DispatchRow :=
  (oldestFirst order db fun row => drainBaseQuery js q db now agent row && patternFree row).head?

def claimPatternFree : DispatchUpdate where
  guard row := (patternFreeCandidate js q order db now agent).any (fun c => c.id = row.id) ∧
    row.status = .pending
  set := q.claimTransition now agent.agentId

/-- Claim by id the first of the rows that is admitted and still to be had. -/
def claimFirst (admits : QueuedJob → Except RegExpError Bool) :
    List DispatchRow → Except RegExpError (Option QueuedJob × Db)
  | [] => return (none, db)
  | row :: rows => do
    let job := rowToQueuedJob js row
    if ← admits job then
      let claim := q.claimRowById now row.id agent.agentId
      if db.dispatchQueue.returning claim ≠ [] then return (some job, db.update claim)
    claimFirst admits rows

def claimWithPatterns : Except RegExpError (Option QueuedJob × Db) :=
  let labelSet := js.canonicalizeLabels agent.agentLabels
  claimFirst js q db now agent (fun job => jobPatternsSatisfiedBy js job labelSet)
    ((oldestFirst order db fun row =>
      drainBaseQuery js q db now agent row && !patternFree row).take 10)

def claimWithPostFilter (canServe : QueuedJob → Bool) :
    Except RegExpError (Option QueuedJob × Db) :=
  let labelSet := js.canonicalizeLabels agent.agentLabels
  claimFirst js q db now agent
    (fun job => do return (← jobPatternsSatisfiedBy js job labelSet) && canServe job)
    ((oldestFirst order db fun row => drainBaseQuery js q db now agent row).take 10)

/-- Claim a job for an agent, that also passes `canServe` if it is given: the job, if
there is one, and the database afterwards. -/
def dequeueForLabels (canServe : Option (QueuedJob → Bool)) :
    Except RegExpError (Option QueuedJob × Db) :=
  match canServe with
  | some canServe => claimWithPostFilter js q order db now agent canServe
  | none =>
    let claim := claimPatternFree js q order db now agent
    match db.dispatchQueue.returning claim with
    | row :: _ => return (some (rowToQueuedJob js row), db.update claim)
    | [] => claimWithPatterns js q order db now agent

end JobQueue

end Kici
