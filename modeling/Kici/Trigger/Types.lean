import Kici.Foundation.Checks
import Kici.Js.Json

/-!
# Triggers, events and decisions

The triggers of a workflow as its lock file holds them, the events they are matched
against, and the decision on a workflow with the trace of its checks. Of the records
of the source there are the fields that matching reads.

What matching uses of the JavaScript runtime and of its packages (`picomatch`,
`safe-regex`, `jsonpath-plus`) is `MatchRuntime`, of which nothing is assumed here.
-/

namespace Kici

/-- What matching throws. -/
inductive MatchError
  | error (message : JsString)
  /-- A regular expression that does not compile. -/
  | syntaxError (source flags : JsString)
  | typeError

/-- What matching uses of the runtime. -/
structure MatchRuntime where
  /-- `picomatch(pattern, { dot })`: both it and the matcher may throw. -/
  picomatch : (pattern : JsString) → (dot : Bool) → Except MatchError (Json → Except MatchError Bool)
  /-- `new RegExp(source, flags)` as a test of strings, `none` where it throws. -/
  regExp : (source flags : JsString) → Option (JsString → Bool)
  /-- `safeRegex(new RegExp(source, flags))`. -/
  safeRegex : (source flags : JsString) → Bool
  /-- `JSONPath({ path, json, wrap: true })`. -/
  jsonPath : (path : JsString) → (json : Json) → Except MatchError (List Json)
  /-- `JSON.stringify(value)`. -/
  stringify : Json → JsString
  /-- `String(value)`. -/
  toStr : Json → JsString
  /-- `value > n`. -/
  exceeds : (value : Json) → (n : ℕ) → Bool
  toLowerCase : JsString → JsString

/-! ## Patterns -/

inductive PatternType
  | glob
  | regex

structure LockBranchPattern where
  type : PatternType
  pattern : JsString
  flags : Option JsString := none

structure LockTextMatch where
  contains : Option (List JsString) := none
  notContains : Option (List JsString) := none
  «matches» : Option (List JsString) := none
  notMatches : Option (List JsString) := none
  ignoreCase : Option Bool := none

/-! ## Triggers -/

structure LockPrTrigger where
  events : List JsString := []
  targetBranches : List LockBranchPattern := []
  sourceBranches : List LockBranchPattern := []
  paths : List JsString := []
  repos : Option (List LockBranchPattern) := none
  commitMessage : Option LockTextMatch := none

structure LockPushTrigger where
  branches : List LockBranchPattern := []
  paths : List JsString := []
  repos : Option (List LockBranchPattern) := none
  commitMessage : Option LockTextMatch := none

structure LockTagTrigger where
  patterns : List LockBranchPattern
  repos : Option (List LockBranchPattern)
  commitMessage : Option LockTextMatch

inductive CommentSource
  | issue
  | pr

structure LockCommentTrigger where
  actions : List JsString
  source : Option CommentSource
  bodyMatch : Option LockBranchPattern
  repos : Option (List LockBranchPattern)

structure LockReviewTrigger where
  actions : List JsString
  states : List JsString
  repos : Option (List LockBranchPattern)

structure LockReviewCommentTrigger where
  actions : List JsString
  repos : Option (List LockBranchPattern)

structure LockReleaseTrigger where
  actions : List JsString
  repos : Option (List LockBranchPattern)

structure LockDispatchTrigger where
  types : List JsString
  repos : Option (List LockBranchPattern)

structure LockCreateTrigger where
  refTypes : List JsString
  patterns : List LockBranchPattern
  repos : Option (List LockBranchPattern)

structure LockDeleteTrigger where
  refTypes : List JsString
  patterns : List LockBranchPattern
  repos : Option (List LockBranchPattern)

structure LockStatusTrigger where
  contexts : List JsString
  states : List JsString
  repos : Option (List LockBranchPattern)

structure LockWorkflowRunTrigger where
  actions : List JsString
  workflows : List JsString
  conclusions : List JsString
  repos : Option (List LockBranchPattern)

structure LockForkTrigger where
  repos : Option (List LockBranchPattern)

structure LockStarTrigger where
  actions : List JsString
  repos : Option (List LockBranchPattern)

structure LockWatchTrigger where
  actions : List JsString
  repos : Option (List LockBranchPattern)

structure LockWebhookTrigger where
  events : List JsString
  actions : List JsString
  repos : Option (List LockBranchPattern)

/-- JSONPath expressions with the values they are to resolve to. -/
abbrev PayloadMatch := List (JsString × Json)

structure LockKiciEventTrigger where
  eventName : JsString
  «match» : Option PayloadMatch
  not : Option PayloadMatch
  source : Option JsString

structure LockWorkflowCompleteTrigger where
  name : Option JsString
  status : Option (List JsString)
  source : Option JsString

structure LockWorkflowsFailedBatchTrigger where
  name : Option JsString
  source : Option JsString

structure LockJobCompleteTrigger where
  workflow : Option JsString
  job : Option JsString
  status : Option (List JsString)
  source : Option JsString

structure LockGenericWebhookTrigger where
  source : JsString
  events : Option (List JsString)
  «match» : Option PayloadMatch
  not : Option PayloadMatch

structure LockScheduleTrigger where
  cronExpression : JsString

structure LockLifecycleTrigger where
  events : List JsString
  sources : Option (List JsString)

inductive LockTrigger
  | pr (trigger : LockPrTrigger)
  | push (trigger : LockPushTrigger)
  | tag (trigger : LockTagTrigger)
  | comment (trigger : LockCommentTrigger)
  | review (trigger : LockReviewTrigger)
  | reviewComment (trigger : LockReviewCommentTrigger)
  | release (trigger : LockReleaseTrigger)
  | dispatch (trigger : LockDispatchTrigger)
  | create (trigger : LockCreateTrigger)
  | delete (trigger : LockDeleteTrigger)
  | status (trigger : LockStatusTrigger)
  | workflowRun (trigger : LockWorkflowRunTrigger)
  | fork (trigger : LockForkTrigger)
  | star (trigger : LockStarTrigger)
  | watch (trigger : LockWatchTrigger)
  | webhook (trigger : LockWebhookTrigger)
  | kiciEvent (trigger : LockKiciEventTrigger)
  | workflowComplete (trigger : LockWorkflowCompleteTrigger)
  | workflowsFailedBatch (trigger : LockWorkflowsFailedBatchTrigger)
  | jobComplete (trigger : LockJobCompleteTrigger)
  | genericWebhook (trigger : LockGenericWebhookTrigger)
  | schedule (trigger : LockScheduleTrigger)
  | lifecycle (trigger : LockLifecycleTrigger)
  /-- A trigger of a type that matching does not know. -/
  | other (type : JsString)

/-- The `_type` of a trigger. -/
def LockTrigger.type : LockTrigger → JsString
  | .pr _ => "pr"
  | .push _ => "push"
  | .tag _ => "tag"
  | .comment _ => "comment"
  | .review _ => "review"
  | .reviewComment _ => "review_comment"
  | .release _ => "release"
  | .dispatch _ => "dispatch"
  | .create _ => "create"
  | .delete _ => "delete"
  | .status _ => "status"
  | .workflowRun _ => "workflow_run"
  | .fork _ => "fork"
  | .star _ => "star"
  | .watch _ => "watch"
  | .webhook _ => "webhook"
  | .kiciEvent _ => "kici_event"
  | .workflowComplete _ => "workflow_complete"
  | .workflowsFailedBatch _ => "workflows_failed_batch"
  | .jobComplete _ => "job_complete"
  | .genericWebhook _ => "generic_webhook"
  | .schedule _ => "schedule"
  | .lifecycle _ => "lifecycle"
  | .other type => type

/-- A workflow; a trigger of its list may be `null`. -/
structure LockWorkflow where
  name : JsString
  triggers : List (Option LockTrigger)

/-! ## Events -/

inductive ChangedFilesStatus
  | fetched
  | unavailable
  | skipped
  deriving DecidableEq

structure SimulatedEvent where
  type : JsString
  action : Option JsString := none
  payload : List (JsString × Json) := []
  targetBranch : JsString := []
  sourceBranch : Option JsString := none
  changedFiles : Option (List JsString) := none
  changedFilesStatus : Option ChangedFilesStatus := none
  baseBranch : Option JsString := none
  defaultBranch : Option JsString := none
  commitMessage : Option JsString := none
  sourceRepo : Option JsString := none

/-- A field of the payload of an event. -/
def SimulatedEvent.payloadProp (event : SimulatedEvent) (key : JsString) : Json :=
  (Json.obj event.payload).prop key

/-! ## Traces and decisions -/

structure TraceEntry where
  check : JsString
  pattern : JsString
  value : Json
  passed : Bool
  reason : Option JsString := none

structure WorkflowDecision where
  workflowName : JsString
  matched : Bool
  matchedTrigger : Option ℕ := none
  checks : List TraceEntry
  summary : JsString
  /-- The `paths` of the triggers that matched only as the changed files are unavailable. -/
  deferredPaths : Option (List (List JsString)) := none

/-- The checks of a trigger: they trace what they see, and note the `paths` that are
left to the agent. -/
abbrev TriggerCheck := Except MatchError (Checked TraceEntry (List JsString))

def TRACE_TEXT_MAX : ℕ := 200

namespace MatchRuntime

variable (rt : MatchRuntime)

/-- Clamp a text of a trace. The source casts what it reads of a payload to strings, so
the text may be any value. -/
def truncateTraceText (text : Json) : Except MatchError Json :=
  match text with
  | .undefined | .null => .error .typeError
  | .str s => .ok (if TRACE_TEXT_MAX < s.length then .str (s.take TRACE_TEXT_MAX ++ "…") else text)
  | .arr values =>
    .ok (if TRACE_TEXT_MAX < values.length then
      .str (rt.toStr (.arr (values.take TRACE_TEXT_MAX)) ++ "…") else text)
  -- An object may have a `length`, but no `slice`.
  | .obj _ => if rt.exceeds (text.prop "length") TRACE_TEXT_MAX then .error .typeError else .ok text
  | .bool _ | .num _ => .ok text

/-- Clamp a text that is a string. -/
def truncateTraceString (text : JsString) : JsString :=
  if TRACE_TEXT_MAX < text.length then text.take TRACE_TEXT_MAX ++ "…" else text

/-- A check that is traced, and passes where `passed`. -/
def traced (check pattern : JsString) (value : Json) (passed : Bool)
    (reason : Option JsString := none) : TriggerCheck := do
  let value ← rt.truncateTraceText value
  return {
    passed
    traces := [{
      check
      pattern := truncateTraceString pattern
      value
      passed
      reason := reason.map truncateTraceString }] }

end MatchRuntime

def createWorkflowDecision (workflowName : JsString) (matched : Bool) (checks : List TraceEntry)
    (matchedTrigger : Option ℕ) (summary : Option JsString) : WorkflowDecision where
  workflowName
  matched
  checks
  matchedTrigger
  summary := summary.getD (if matched then "Trigger conditions met" else "No matching trigger")

end Kici
