import Kici.Trigger.TextMatch

/-!
# Matching the triggers of a workflow

`matchTrigger` matches one trigger against an event, by checks in turn; which checks,
each `match…Trigger` says. `matchWorkflowTriggers` takes the first trigger that matches.

A trigger with `paths` on an event whose changed files are unavailable matches
provisionally, where an agent can diff a git range for them (`isDeferrableRange`); the
scan then goes on for a trigger that matches outright, and without one the decision
carries the `paths` of all the provisional matches (`deferredPaths`). The agent decides
those by `evaluateDeferredPaths`.
-/

namespace Kici

open Check LockBranchPattern JsString

/-! ## The git range of an event -/

inductive DiffRange
  | twoDot (base head : JsString)
  | newBranch (defaultBranch head : JsString)
  | deleted
  | pr (base : JsString)
  | none

/-- Whether a SHA is the all-zero placeholder of git. -/
def isZeroSha (sha : JsString) : Bool := sha ≠ [] ∧ sha.all fun c => c ∈ js "0"

def nonEmptyString : Json → Option JsString
  | .str s => if s ≠ [] then some s else .none
  | _ => .none

def defaultBranchOf (event : SimulatedEvent) : Option JsString :=
  match event.defaultBranch with
  | some (c :: branch) => some (c :: branch)
  | _ => nonEmptyString ((event.payloadProp "repository").prop "default_branch")

/-- The git range an event changed. -/
def resolveDiffRange (event : SimulatedEvent) : DiffRange :=
  if event.type = "pull_request" then
    let base := event.baseBranch.getD event.targetBranch
    if base ≠ [] then .pr base else .none
  else if event.type ≠ "push" then .none
  else
    match nonEmptyString (event.payloadProp "before"), nonEmptyString (event.payloadProp "after") with
    | some before, some after =>
      if isZeroSha after then .deleted
      else if isZeroSha before = false then .twoDot before after
      else
        match defaultBranchOf event with
        | some defaultBranch =>
          if defaultBranch = event.targetBranch then .none else .newBranch defaultBranch after
        | .none => .none
    | _, _ => .none

/-- Whether an agent can compute the diff of a range. -/
def isDeferrableRange : DiffRange → Bool
  | .twoDot .. | .newBranch .. | .pr _ => true
  | .deleted | .none => false

/-! ## Patterns -/

/-- Patterns, split by the `!` of those that exclude, which is dropped. -/
structure SplitPatterns (α : Type) where
  included : List α
  excluded : List α

def splitStringPatterns (patterns : List JsString) : SplitPatterns JsString where
  included := patterns.filter fun p => ! startsWith p "!"
  excluded := (patterns.filter fun p => startsWith p "!").map (List.drop 1)

def splitBranchPatterns (patterns : List LockBranchPattern) : SplitPatterns LockBranchPattern where
  included := patterns.filter fun p => ! startsWith p.pattern "!"
  excluded := (patterns.filter fun p => startsWith p.pattern "!").map fun p =>
    { p with pattern := p.pattern.drop 1 }

namespace MatchRuntime

variable (rt : MatchRuntime)

/-- Test a value against a glob pattern. -/
def globMatches (pattern : JsString) (dot : Bool) (value : Json) : Except MatchError Bool := do
  let matcher ← rt.picomatch pattern dot
  matcher value

def matchBranchPattern (pattern : LockBranchPattern) (branch : Json) : Except MatchError Bool :=
  match pattern.type with
  | .glob => rt.globMatches pattern.pattern false branch
  | .regex => do
    let regex ← rt.getCompiledRegex pattern.pattern pattern.flags "branch/tag/repo pattern"
    return regex (rt.toStr branch)

/-- As `matchBranchPattern`, but a glob matches names that begin with a dot. -/
def matchRepoPattern (pattern : LockBranchPattern) (repo : Json) : Except MatchError Bool :=
  match pattern.type with
  | .glob => rt.globMatches pattern.pattern true repo
  | .regex => do
    let regex ← rt.getCompiledRegex pattern.pattern pattern.flags "branch/tag/repo pattern"
    return regex (rt.toStr repo)

def matchAnyBranch (patterns : List LockBranchPattern) (branch : Json) : Except MatchError Bool :=
  if patterns = [] then .ok true else patterns.anyM fun p => rt.matchBranchPattern p branch

/-- Match path patterns against changed files: some file that no pattern excludes is to
match a pattern, if there are any that do not exclude. -/
def matchPathPatterns (paths changedFiles : List JsString) (status : Option ChangedFilesStatus) :
    Except MatchError Bool :=
  if paths = [] then .ok true
  else if status = some .unavailable then .ok true
  else if changedFiles = [] then .ok false
  else do
    let split := splitStringPatterns paths
    let relevantFiles ← changedFiles.filterM fun file => do
      return ! (← split.excluded.anyM fun p => rt.globMatches p false (.str file))
    if relevantFiles = [] then return false
    if split.included = [] then return true
    relevantFiles.anyM fun file => split.included.anyM fun p => rt.globMatches p false (.str file)

def matchRepoPatterns (repos : List LockBranchPattern) (sourceRepo : JsString) :
    Except MatchError Bool :=
  if repos = [] then .ok true
  else do
    let split := splitBranchPatterns repos
    if ← split.excluded.anyM fun p => rt.matchRepoPattern p (.str sourceRepo) then return false
    if split.included = [] then return true
    split.included.anyM fun p => rt.matchRepoPattern p (.str sourceRepo)

/-! ## Checks -/

variable (event : SimulatedEvent)

def checkEventType (expected : JsString) : TriggerCheck :=
  rt.traced "event type" expected (.str event.type) (event.type = expected)

/-- A filter by a list of strings, of which an empty one admits all. -/
def checkIncludes (check : JsString) (allowed : List JsString) (value : Json) : TriggerCheck :=
  when (allowed ≠ []) <|
    rt.traced check (join allowed "|") value (allowed.any fun a => value.isStr a)

def checkAction (actions : List JsString) : TriggerCheck :=
  rt.checkIncludes "action" actions (.str (event.action.getD []))

def checkEquals (check expected : JsString) (value : Json) : TriggerCheck :=
  rt.traced check expected value (value.isStr expected)

/-- A filter by a string, if there is one and it is not empty. -/
def checkOptional (check : JsString) (expected : Option JsString) (value : Json) : TriggerCheck :=
  when (expected.getD [] ≠ []) (rt.checkEquals check (expected.getD []) value)

/-- A field of the payload, the empty string in its absence. -/
def payloadText (key : JsString) : Json := (event.payloadProp key).orElse (.str [])

/-- A filter by patterns of branches, tags or refs. -/
def checkBranches (check : JsString) (patterns : List LockBranchPattern) (branch : Json) :
    TriggerCheck :=
  when (patterns ≠ []) do
    let passed ← rt.matchAnyBranch patterns branch
    rt.traced check (join (patterns.map pattern) "|") branch passed

def evaluateRepoFilter (repos : Option (List LockBranchPattern)) : TriggerCheck :=
  let repos := repos.getD []
  when (repos ≠ []) <|
    match event.sourceRepo with
    | some (c :: repo) => do
      let split := splitBranchPatterns repos
      let repoMatch ← rt.matchRepoPatterns repos (c :: repo)
      let listed (ps : List LockBranchPattern) := join (ps.map pattern) ","
      rt.traced "repo" ("include:[" ++ listed split.included ++ "] exclude:[" ++
        listed split.excluded ++ "]") (.str (c :: repo)) repoMatch
    | _ => rt.traced "repo" "required" (.str "(missing)") false

/-- Trace the verdict of a `commitMessage` filter, on a message or in its absence. -/
def commitMessageTraced (m : LockTextMatch) (text : Option JsString) (passed : Bool)
    (indeterminate : Bool) (reason : Option JsString) : TriggerCheck :=
  let shown := (text.map truncateTraceString).getD "(absent)"
  let verdict : JsString :=
    if indeterminate then "indeterminate" else if passed then "matched" else "excluded"
  rt.traced "commitMessage" (describeTextMatch m) (.str verdict) passed
    (some (reason.getD ("message: " ++ rt.stringify (.str shown))))

def evaluateCommitMessageFilter (commitMessage : Option LockTextMatch) : TriggerCheck :=
  match commitMessage with
  | none => pass
  | some m =>
    match event.commitMessage with
    | none => rt.commitMessageTraced m none false true
        (some "no commit message in payload (provider carries none for this event)")
    | some text =>
      let result := rt.evaluateTextMatch text m
      rt.commitMessageTraced m (some text) result.pass result.indeterminate.isSome
        result.indeterminate

/-- Check the `paths` of a trigger, and note them where they are left to the agent. -/
def checkTriggerPaths (paths : List JsString) : TriggerCheck :=
  when (paths ≠ []) do
    let changedFiles := event.changedFiles.getD []
    let split := splitStringPatterns paths
    let unavailable : Bool := event.changedFilesStatus = some .unavailable
    let deferrable := unavailable && isDeferrableRange (resolveDiffRange event)
    let passed ← rt.matchPathPatterns paths changedFiles event.changedFilesStatus
    let value : JsString :=
      if unavailable = false then "[" ++ join changedFiles ", " ++ "]"
      else if deferrable then "[unavailable — decided on agent]"
      else "[unavailable — matched conservatively]"
    let checked ← rt.traced "paths" ("include: [" ++ join split.included ", " ++
      "] exclude: [" ++ join split.excluded ", " ++ "]") (.str value) passed
    return { checked with note := if deferrable then some paths else none }

/-! ## Triggers -/

def matchPrTrigger (trigger : LockPrTrigger) : TriggerCheck :=
  all [
    rt.checkEventType event "pull_request",
    rt.checkAction event trigger.events,
    rt.checkBranches "target branch" trigger.targetBranches (.str event.targetBranch),
    when (trigger.sourceBranches ≠ []) (
      match event.sourceBranch with
      | some (c :: branch) =>
        rt.checkBranches "source branch" trigger.sourceBranches (.str (c :: branch))
      | _ => rt.traced "source branch"
          (join (trigger.sourceBranches.map pattern) "|")
          (.str "(missing)") false
          (some "Event has no sourceBranch but trigger requires source branch filtering")),
    rt.checkTriggerPaths event trigger.paths,
    rt.evaluateCommitMessageFilter event trigger.commitMessage,
    rt.evaluateRepoFilter event trigger.repos]

def matchPushTrigger (trigger : LockPushTrigger) : TriggerCheck :=
  all [
    rt.checkEventType event "push",
    rt.checkBranches "branch" trigger.branches (.str event.targetBranch),
    rt.checkTriggerPaths event trigger.paths,
    rt.evaluateCommitMessageFilter event trigger.commitMessage,
    rt.evaluateRepoFilter event trigger.repos]

def matchTagTrigger (trigger : LockTagTrigger) : TriggerCheck :=
  all [
    rt.checkEventType event "tag",
    rt.checkBranches "tag pattern" trigger.patterns (.str event.targetBranch),
    rt.evaluateCommitMessageFilter event trigger.commitMessage,
    rt.evaluateRepoFilter event trigger.repos]

/-- Whether a comment is on a pull request, not on an issue. -/
def isFromPr : Except MatchError Bool :=
  let issue := event.payloadProp "issue"
  match issue with
  | .obj entries => .ok (entries.any fun e => e.1 = "pull_request")
  | .arr _ => .ok false
  -- The operator `in` throws on a primitive.
  | _ => if issue.truthy then .error .typeError else .ok false

def checkCommentSource (source : CommentSource) : TriggerCheck := do
  let fromPr ← isFromPr event
  let value : JsString := if fromPr then "pr" else "issue"
  match source with
  | .issue => rt.traced "source" "issue" (.str value) (!fromPr)
  | .pr => rt.traced "source" "pr" (.str value) fromPr

def checkCommentBody (bodyMatch : LockBranchPattern) : TriggerCheck := do
  let body := ((event.payloadProp "comment").prop "body").orElse (.str [])
  match bodyMatch.type with
  | .glob =>
    let passed ← rt.globMatches bodyMatch.pattern false body
    rt.traced "bodyMatch (glob)" bodyMatch.pattern body passed
  | .regex =>
    let regex ← rt.getCompiledRegex bodyMatch.pattern bodyMatch.flags "comment bodyMatch"
    rt.traced "bodyMatch (regex)" bodyMatch.pattern body (regex (rt.toStr body))

def matchCommentTrigger (trigger : LockCommentTrigger) : TriggerCheck :=
  all [
    rt.checkEventType event "comment",
    rt.checkAction event trigger.actions,
    trigger.source.elim pass (rt.checkCommentSource event),
    trigger.bodyMatch.elim pass (rt.checkCommentBody event),
    rt.evaluateRepoFilter event trigger.repos]

def matchReviewTrigger (trigger : LockReviewTrigger) : TriggerCheck :=
  all [
    rt.checkEventType event "review",
    rt.checkAction event trigger.actions,
    rt.checkIncludes "state" trigger.states
      (((event.payloadProp "review").prop "state").orElse (.str [])),
    rt.evaluateRepoFilter event trigger.repos]

def matchReviewCommentTrigger (trigger : LockReviewCommentTrigger) : TriggerCheck :=
  all [
    rt.checkEventType event "review_comment",
    rt.checkAction event trigger.actions,
    rt.evaluateRepoFilter event trigger.repos]

def matchReleaseTrigger (trigger : LockReleaseTrigger) : TriggerCheck :=
  all [
    rt.checkEventType event "release",
    rt.checkAction event trigger.actions,
    rt.evaluateRepoFilter event trigger.repos]

def matchDispatchTrigger (trigger : LockDispatchTrigger) : TriggerCheck :=
  all [
    rt.checkEventType event "dispatch",
    rt.checkIncludes "dispatch type" trigger.types (.str (event.action.getD [])),
    rt.evaluateRepoFilter event trigger.repos]

/-- The checks of a created or deleted ref. -/
def matchRefTrigger (type : JsString) (refTypes : List JsString) (patterns : List LockBranchPattern)
    (repos : Option (List LockBranchPattern)) : TriggerCheck :=
  all [
    rt.checkEventType event type,
    rt.checkIncludes "ref type" refTypes (event.payloadProp "ref_type"),
    rt.checkBranches "ref pattern" patterns (event.payloadProp "ref"),
    rt.evaluateRepoFilter event repos]

def matchCreateTrigger (trigger : LockCreateTrigger) : TriggerCheck :=
  rt.matchRefTrigger event "create" trigger.refTypes trigger.patterns trigger.repos

def matchDeleteTrigger (trigger : LockDeleteTrigger) : TriggerCheck :=
  rt.matchRefTrigger event "delete" trigger.refTypes trigger.patterns trigger.repos

/-- The filter of a status by globs. -/
def checkContext (contexts : List JsString) : TriggerCheck := do
  let context := payloadText event "context"
  let passed ← contexts.anyM fun p => rt.globMatches p false context
  rt.traced "context" (join contexts "|") context passed

def matchStatusTrigger (trigger : LockStatusTrigger) : TriggerCheck :=
  all [
    rt.checkEventType event "status",
    when (trigger.contexts ≠ []) (rt.checkContext event trigger.contexts),
    rt.checkIncludes "state" trigger.states (payloadText event "state"),
    rt.evaluateRepoFilter event trigger.repos]

def matchWorkflowRunTrigger (trigger : LockWorkflowRunTrigger) : TriggerCheck :=
  let workflowRun := event.payloadProp "workflow_run"
  all [
    rt.checkEventType event "workflow_run",
    rt.checkAction event trigger.actions,
    rt.checkIncludes "workflow name" trigger.workflows ((workflowRun.prop "name").orElse (.str [])),
    rt.checkIncludes "conclusion" trigger.conclusions
      ((workflowRun.prop "conclusion").orElse (.str [])),
    rt.evaluateRepoFilter event trigger.repos]

def matchForkTrigger (trigger : LockForkTrigger) : TriggerCheck :=
  all [
    rt.checkEventType event "fork",
    rt.evaluateRepoFilter event trigger.repos]

def matchStarTrigger (trigger : LockStarTrigger) : TriggerCheck :=
  all [
    rt.checkEventType event "star",
    rt.checkAction event trigger.actions,
    rt.evaluateRepoFilter event trigger.repos]

def matchWatchTrigger (trigger : LockWatchTrigger) : TriggerCheck :=
  all [
    rt.checkEventType event "watch",
    rt.checkAction event trigger.actions,
    rt.evaluateRepoFilter event trigger.repos]

/-- As the other filters by lists, but an empty list of events admits none. -/
def matchWebhookTrigger (trigger : LockWebhookTrigger) : TriggerCheck :=
  all [
    rt.traced "event type" (join trigger.events "|") (.str event.type)
      (event.type ∈ trigger.events),
    rt.checkAction event trigger.actions,
    rt.evaluateRepoFilter event trigger.repos]

/-- A JSONPath filter of a payload. -/
def checkJsonPath (payload : Json) (m : PayloadMatch) : TriggerCheck := do
  let passed ← rt.matchJsonPath payload m
  rt.traced "jsonpath match" (rt.stringify (.obj m)) (.str "(payload)") passed

/-- A negative JSONPath filter of a payload. -/
def checkJsonPathNot (payload : Json) (not : PayloadMatch) : TriggerCheck := do
  let passes ← rt.matchJsonPathNot payload not
  rt.traced "jsonpath not" (rt.stringify (.obj not)) (.str "(payload)") passes

/-- The JSONPath filters of a trigger, of which an empty one admits all payloads. -/
def checkPayload (payload : Json) (m not : Option PayloadMatch) : TriggerCheck :=
  all [
    when (m.getD [] ≠ []) (rt.checkJsonPath payload (m.getD [])),
    when (not.getD [] ≠ []) (rt.checkJsonPathNot payload (not.getD []))]

def matchKiciEventTrigger (trigger : LockKiciEventTrigger) : TriggerCheck :=
  all [
    rt.checkEventType event "kici_event",
    rt.checkEquals "event name" trigger.eventName (payloadText event "eventName"),
    rt.checkPayload ((event.payloadProp "payload").orElse (.obj [])) trigger.match trigger.not,
    rt.checkOptional "source" trigger.source (payloadText event "sourceRepo")]

def matchWorkflowCompleteTrigger (trigger : LockWorkflowCompleteTrigger) : TriggerCheck :=
  all [
    rt.checkEventType event "workflow_complete",
    rt.checkOptional "workflow name" trigger.name (payloadText event "workflowName"),
    rt.checkIncludes "status" (trigger.status.getD []) (payloadText event "status"),
    rt.checkOptional "source" trigger.source (payloadText event "sourceRepo")]

/-- A failed workflow is an input of the batch, an event of the batch dispatches it. -/
def checkBatchEvent : TriggerCheck :=
  if event.type = "workflow_complete" then
    andThen (rt.checkEquals "status" "failed" (payloadText event "status"))
      (rt.traced "event type" "workflows_failed_batch" (.str event.type) true)
  else if event.type ≠ "workflows_failed_batch" then
    rt.traced "event type" "workflow_complete|workflows_failed_batch" (.str event.type) false
  else rt.traced "event type" "workflows_failed_batch" (.str event.type) true

def matchWorkflowsFailedBatchTrigger (trigger : LockWorkflowsFailedBatchTrigger) : TriggerCheck :=
  all [
    rt.checkBatchEvent event,
    rt.checkOptional "workflow name" trigger.name (payloadText event "workflowName"),
    rt.checkOptional "source" trigger.source (payloadText event "sourceRepo")]

def matchJobCompleteTrigger (trigger : LockJobCompleteTrigger) : TriggerCheck :=
  all [
    rt.checkEventType event "job_complete",
    rt.checkOptional "workflow name" trigger.workflow (payloadText event "workflowName"),
    rt.checkOptional "job name" trigger.job (payloadText event "jobName"),
    rt.checkIncludes "status" (trigger.status.getD []) (payloadText event "status"),
    rt.checkOptional "source" trigger.source (payloadText event "sourceRepo")]

def matchGenericWebhookTrigger (trigger : LockGenericWebhookTrigger) : TriggerCheck :=
  all [
    rt.checkEventType event "generic_webhook",
    rt.checkEquals "source" trigger.source (payloadText event "source"),
    rt.checkIncludes "event type filter" (trigger.events.getD [])
      ((event.payloadProp "eventType").orElse (.str (event.action.getD []))),
    rt.checkPayload (.obj event.payload) trigger.match trigger.not]

def matchScheduleTrigger (trigger : LockScheduleTrigger) : TriggerCheck :=
  all [
    rt.checkEventType event "schedule",
    rt.checkEquals "cron expression" trigger.cronExpression (payloadText event "cronExpression")]

def matchLifecycleTrigger (trigger : LockLifecycleTrigger) : TriggerCheck :=
  let lifecycleEvent := payloadText event "lifecycleEvent"
  all [
    rt.checkEventType event "lifecycle",
    rt.traced "lifecycle event" (join trigger.events "|") lifecycleEvent
      (trigger.events.any fun e => lifecycleEvent.isStr e),
    rt.checkIncludes "source" (trigger.sources.getD []) (payloadText event "sourceRepo")]

/-- Match a trigger against an event. -/
def matchTrigger : LockTrigger → TriggerCheck
  | .pr trigger => rt.matchPrTrigger event trigger
  | .push trigger => rt.matchPushTrigger event trigger
  | .tag trigger => rt.matchTagTrigger event trigger
  | .comment trigger => rt.matchCommentTrigger event trigger
  | .review trigger => rt.matchReviewTrigger event trigger
  | .reviewComment trigger => rt.matchReviewCommentTrigger event trigger
  | .release trigger => rt.matchReleaseTrigger event trigger
  | .dispatch trigger => rt.matchDispatchTrigger event trigger
  | .create trigger => rt.matchCreateTrigger event trigger
  | .delete trigger => rt.matchDeleteTrigger event trigger
  | .status trigger => rt.matchStatusTrigger event trigger
  | .workflowRun trigger => rt.matchWorkflowRunTrigger event trigger
  | .fork trigger => rt.matchForkTrigger event trigger
  | .star trigger => rt.matchStarTrigger event trigger
  | .watch trigger => rt.matchWatchTrigger event trigger
  | .webhook trigger => rt.matchWebhookTrigger event trigger
  | .kiciEvent trigger => rt.matchKiciEventTrigger event trigger
  | .workflowComplete trigger => rt.matchWorkflowCompleteTrigger event trigger
  | .workflowsFailedBatch trigger => rt.matchWorkflowsFailedBatchTrigger event trigger
  | .jobComplete trigger => rt.matchJobCompleteTrigger event trigger
  | .genericWebhook trigger => rt.matchGenericWebhookTrigger event trigger
  | .schedule trigger => rt.matchScheduleTrigger event trigger
  | .lifecycle trigger => rt.matchLifecycleTrigger event trigger
  | .other _ => .ok { passed := false }

/-! ## Workflows -/

/-- The first trigger that matched provisionally. -/
structure FirstDeferred where
  index : ℕ
  traces : List TraceEntry
  type : JsString

/-- `Matched trigger ${index + 1} (${type})`. -/
def matchedSummary (index : ℕ) (type : JsString) : JsString :=
  "Matched trigger " ++ js (toString (index + 1)) ++ " (" ++ type ++ ")"

/-- The scan of the triggers from the index `i` on. -/
def scanTriggers (workflowName : JsString) (i : ℕ) (allTraces : List TraceEntry)
    (firstDeferred : Option FirstDeferred) (deferredPaths : List (List JsString)) :
    List (Option LockTrigger) → Except MatchError WorkflowDecision
  | [] =>
    match firstDeferred with
    | some first => .ok { createWorkflowDecision workflowName true first.traces (some first.index)
        (some (matchedSummary first.index first.type ++ " — paths decided on the agent")) with
          deferredPaths := some deferredPaths }
    | none => .ok (createWorkflowDecision workflowName false allTraces none
        (some "No triggers matched"))
  | none :: triggers =>
    scanTriggers workflowName (i + 1) allTraces firstDeferred deferredPaths triggers
  | some trigger :: triggers => do
    let checked ← rt.matchTrigger event trigger
    if checked.passed then
      match checked.note with
      | none =>
        return createWorkflowDecision workflowName true checked.traces (some i)
          (some (matchedSummary i trigger.type))
      | some paths =>
        -- A later trigger may still match outright.
        scanTriggers workflowName (i + 1) allTraces
          (firstDeferred.or (some ⟨i, checked.traces, trigger.type⟩)) (deferredPaths ++ [paths])
          triggers
    else
      scanTriggers workflowName (i + 1) (allTraces ++ checked.traces) firstDeferred deferredPaths
        triggers

/-- Match the triggers of a workflow against an event. -/
def matchWorkflowTriggers (workflow : LockWorkflow) : Except MatchError WorkflowDecision :=
  if workflow.triggers = [] then
    .ok (createWorkflowDecision workflow.name false [] none (some "No triggers defined"))
  else rt.scanTriggers event workflow.name 0 [] none [] workflow.triggers

/-- The verdict of the agent on deferred `paths`, from the diff of its clone. -/
def evaluateDeferredPaths (deferredPaths : List (List JsString)) (files : List JsString)
    (status : ChangedFilesStatus) : Except MatchError Bool :=
  if status ≠ .fetched then .ok true
  else deferredPaths.anyM fun paths => rt.matchPathPatterns paths files (some .fetched)

end MatchRuntime

end Kici
