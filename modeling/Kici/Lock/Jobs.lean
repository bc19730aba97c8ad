import Kici.Execution.Status
import Kici.Js.Json
import Kici.Labels.Match
import Kici.Lock.Steps

/-!
# Jobs in the lock

The compiler writes a static job into the lock (`transformJob`), and an agent writes those that a
generator gave (`serializeJobsToLock`). What an author declares of a job (`Job`) is the same for
both. Values that both only pass on are kept as JSON.

A field may hold a function of the event. The compiler leaves a mark for it, and the agent calls it;
what it gives, or the error it throws, is part of the job here (`Dynamic`).
-/

namespace Kici.Lock

variable {α : Type}

/-! ## What is declared -/

inductive Dynamic (α : Type)
  | value (a : α)
  /-- A function, which gives a value or none, or throws. -/
  | function (result : Except JsString (Option α))

def Dynamic.value? : Dynamic α → Option α
  | value a => some a
  | function _ => none

/-- The mark of a function. -/
def Dynamic.mark : Dynamic α → Option Bool
  | value _ => none
  | function _ => some true

inductive SelectorEl
  | text (el : String)
  | regExp (source flags : String)

inductive OneOrMany (α : Type)
  | one (a : α)
  | many (as : List α)

def asArray : OneOrMany α → List α
  | .one a => [a]
  | .many as => as

inductive RunsOnPick
  | deterministic
  | any

inductive RunsOn
  | short (els : OneOrMany SelectorEl)
  | selector (labels : OneOrMany SelectorEl) (exclude : Option (OneOrMany SelectorEl))
    (pick : Option RunsOnPick)

inductive RunsOnAll
  | short (els : OneOrMany SelectorEl)
  | groups (groups : List (List SelectorEl)) (exclude : Option (List SelectorEl))

inductive OnUnreachableMode
  | skip
  | fail
  | hold

structure InvokeConfig where
  event : JsString
  scope : JsString
  payload : Option Json := none
  isOptional : Option Bool := none

inductive NeedsWhen
  | onSuccess
  | always
  | onSkip
  | onFailure

inductive NeedsWhenInput
  | keyword (keyword : NeedsWhen)
  | statuses (statuses : List ExecutionJobStatus)

/-- What a job needs; a job object is told by its name. -/
inductive Need
  | text (name : JsString)
  | job (name : JsString)
  | groupRef (group : JsString) (when? : Option NeedsWhenInput)
  | entry (name : JsString) (when? : Option NeedsWhenInput)
  | groupEntry (group : JsString) (when? : Option NeedsWhenInput)

inductive MatrixValues
  | array (values : List JsString)
  | object (dimensions : List (JsString × List JsString))

structure Job where
  name : JsString
  runsOn : Option RunsOn := none
  runsOnAll : Option RunsOnAll := none
  onUnreachable : Option OnUnreachableMode := none
  includeUninitialized : Option Bool := none
  gitCredentials : Option Json := none
  maxParallel : Option Rat := none
  failFast : Option Bool := none
  invoke : Option InvokeConfig := none
  steps : List StepInput := []
  needs : Option (List Need) := none
  /-- The labels of the rules. -/
  rules : Option (List JsString) := none
  description : Option JsString := none
  matrix : Option (Dynamic MatrixValues) := none
  included : Option (List Json) := none
  excluded : Option (List Json) := none
  checkout : Option Bool := none
  cache : Option CacheInput := none
  container : Option Json := none
  sandbox : Option Json := none
  context : Option (Dynamic JsString) := none
  contexts : Option (List (Dynamic JsString)) := none
  env : Option (Dynamic (List (JsString × JsString))) := none
  concurrencyGroup : Option (Dynamic JsString) := none
  onCancel : Bool := false
  cleanup : Bool := false
  onSuccess : Bool := false
  onFailure : Bool := false
  beforeStep : Bool := false
  afterStep : Bool := false
  gracePeriod : Option Rat := none
  timeout : Option Rat := none
  resources : Option Json := none
  init : Option Json := none
  approval : Option ApprovalConfig := none

/-! ## The lock -/

inductive LockNeed
  | name (name : JsString)
  | entry (name : JsString) (runOn : List ExecutionJobStatus)
  | group (group : JsString) (runOn : List ExecutionJobStatus)

structure LockContext where
  value : JsString
  dynamic : Bool

inductive LockMatrix
  | values (values : MatrixValues)
  /-- A function of the job in a file. -/
  | dynamic (file jobName : JsString)

structure LockJob where
  name : JsString
  runsOn : Option (List LabelMatcher) := none
  excludeLabels : Option (List LabelMatcher) := none
  runsOnPick : Option RunsOnPick := none
  /-- The groups of labels, and those that are excluded. -/
  runsOnAll : Option (List (List LabelMatcher) × List LabelMatcher) := none
  onUnreachable : Option OnUnreachableMode := none
  includeUninitialized : Option Bool := none
  gitCredentials : Option Json := none
  maxParallel : Option Rat := none
  failFast : Option Bool := none
  invoke : Option InvokeConfig := none
  needs : List LockNeed
  dependsOnGroups : Option (List JsString) := none
  steps : List LockStepEntry
  matrix : Option LockMatrix := none
  included : Option (List Json) := none
  excluded : Option (List Json) := none
  rules : Option (List LockRule) := none
  description : Option JsString := none
  checkout : Option Bool := none
  cache : Option (List CacheSpec) := none
  container : Option Json := none
  sandbox : Option Json := none
  contexts : Option (List LockContext) := none
  env : Option (List (JsString × JsString)) := none
  dynamicEnv : Option Bool := none
  concurrencyGroup : Option JsString := none
  dynamicConcurrencyGroup : Option Bool := none
  hasOnCancel : Option Bool := none
  hasCleanup : Option Bool := none
  hasOnSuccess : Option Bool := none
  hasOnFailure : Option Bool := none
  hasBeforeStep : Option Bool := none
  hasAfterStep : Option Bool := none
  gracePeriod : Option Rat := none
  timeout : Option Rat := none
  resources : Option Json := none
  init : Option Json := none
  approval : Option LockApproval := none

/-! ## What both use -/

/-- What labels and resources take from elsewhere: globs and the expressions they stand for, the
check of expressions, and the check of resources. -/
structure LabelHost where
  isGlob : String → Bool
  /-- The source and the flags, where the glob is a pattern. -/
  makeRe : String → Option (String × String)
  safeRegex : (source flags : String) → Bool
  validateResourceRequest : Json → Except JsString Unit

/-- Labels that are no patterns, and resources that are all valid. -/
def plainLabels : LabelHost := ⟨fun _ => false, fun _ => none, fun _ _ => true, fun _ => .ok ()⟩

namespace LabelHost

variable (host : LabelHost) (ctx : JsString)

def assertSafeRegex (source flags : String) : Except JsString Unit :=
  if host.safeRegex source flags then .ok ()
  else .error (ctx ++ js (": regex /" ++ source ++ "/" ++ flags ++ " is ReDoS-prone — rejected"))

def toLabelMatcher : SelectorEl → Except JsString LabelMatcher
  | .regExp source flags => do
    host.assertSafeRegex ctx source (stripStatefulRegexFlags flags)
    .ok (.regex source (stripStatefulRegexFlags flags))
  | .text el =>
    if host.isGlob el then
      match host.makeRe el with
      | none => .error (ctx ++ js (": glob '" ++ el ++ "' is not a valid pattern"))
      | some (source, flags) => do
        host.assertSafeRegex ctx source (stripStatefulRegexFlags flags)
        .ok (.regex source (stripStatefulRegexFlags flags))
    else .ok (.exact el)

/-- Whether what is excluded counts as given: one empty label does not. -/
def givenExclude : Option (OneOrMany SelectorEl) → List SelectorEl
  | none | some (.one (.text "")) => []
  | some exclude => asArray exclude

/-- The labels a job needs, and those it excludes. -/
def normalizeRunsOnToMatchers : RunsOn → Except JsString (List LabelMatcher × List LabelMatcher)
  | .short els => do
    let «include» ← (asArray els).mapM (host.toLabelMatcher ctx)
    .ok («include», [])
  | .selector labels exclude _ => do
    let «include» ← (asArray labels).mapM (host.toLabelMatcher ctx)
    let exclude ← (givenExclude exclude).mapM (host.toLabelMatcher ctx)
    .ok («include», exclude)

/-- A label that is excluded by its first character, without it. -/
def excludedEl : SelectorEl → Option SelectorEl
  | .text el => if el.startsWith "!" then some (.text (el.drop 1).toString) else none
  | .regExp _ _ => none

def normalizeRunsOnAllToMatchers : RunsOnAll →
    Except JsString (List (List LabelMatcher) × List LabelMatcher)
  | .short (.one el) => do
    let matcher ← host.toLabelMatcher ctx el
    .ok ([[matcher]], [])
  | .short (.many els) => do
    let «include» ← (els.filter fun el => (excludedEl el).isNone).mapM (host.toLabelMatcher ctx)
    let exclude ← (els.filterMap excludedEl).mapM (host.toLabelMatcher ctx)
    .ok (if «include» = [] then [] else [«include»], exclude)
  | .groups groups exclude => do
    let «include» ← groups.mapM fun group => group.mapM (host.toLabelMatcher ctx)
    let exclude ← (exclude.getD []).mapM (host.toLabelMatcher ctx)
    .ok («include», exclude)

end LabelHost

def runsOnPickFromInput : RunsOn → RunsOnPick
  | .short _ => .deterministic
  | .selector _ _ pick => pick.getD .deterministic

def NeedsWhen.toRunOn : NeedsWhen → List ExecutionJobStatus
  | onSuccess => [.success]
  | always => TERMINAL_JOB_STATES
  | onSkip => [.success, .skipped]
  | onFailure => TERMINAL_JOB_STATES.filter isFailureStatus

def resolveWhenToRunOn : Option NeedsWhenInput → List ExecutionJobStatus
  | none => [.success]
  | some (.statuses statuses) => statuses
  | some (.keyword keyword) => keyword.toRunOn

/-- An invoke gate as it stands in the lock: it is marked as optional only if it is. -/
def lockInvoke (invoke : InvokeConfig) : InvokeConfig :=
  { invoke with isOptional := invoke.isOptional.filter (· = true) }

/-- The contexts of a job, in order. -/
def contextRefs (job : Job) : List (Dynamic JsString) :=
  match job.contexts with
  | some contexts => contexts
  | none => job.context.toList

/-- The groups among needs, if there are any. -/
def groupNames (groups : List JsString) : Option (List JsString) :=
  if groups = [] then none else some groups

/-- A hook that is declared is marked. -/
def hookFlag (hook : Bool) : Option Bool := if hook then some true else none

/-! ## The compiler -/

/-- A need in the lock; jobs without a name of their own have the one that the compiler gave them. -/
def resolveNeedForLock (uuidToName : JsString → Option JsString) : Need → LockNeed
  | .text name | .job name => .name ((uuidToName name).getD name)
  | .groupRef group when? | .groupEntry group when? => .group group (resolveWhenToRunOn when?)
  | .entry name when? => .entry ((uuidToName name).getD name) (resolveWhenToRunOn when?)

def LockNeed.group? : LockNeed → Option JsString
  | group target _ => some target
  | name _ | entry _ _ => none

def resolveNeedsForLock (uuidToName : JsString → Option JsString) (needs : Option (List Need)) :
    List LockNeed × Option (List JsString) :=
  let resolved := (needs.getD []).map (resolveNeedForLock uuidToName)
  (resolved, groupNames (resolved.filterMap (·.group?)))

def transformContextRef : Dynamic JsString → LockContext
  | .value name => ⟨name, false⟩
  | .function _ => ⟨[], true⟩

def transformMatrix (jobName configPath : JsString) : Dynamic MatrixValues → LockMatrix
  | .value values => .values values
  | .function _ => .dynamic configPath jobName

def exactLabels (matchers : List LabelMatcher) : List String :=
  matchers.filterMap fun matcher => match matcher with
    | .exact value => some value
    | .regex _ _ => none

/-- A thrown error that is not the compiler's own. -/
def thrown : Except JsString α → Except CompilerError α
  | .ok a => .ok a
  | .error message => .error ⟨none, message⟩

section
variable (host : CompilerHost) (labels : LabelHost)

def validateRunsOn (runsOn : RunsOn) (jobName : JsString) : Except CompilerError Unit := do
  let («include», exclude) ←
    thrown (labels.normalizeRunsOnToMatchers (js "job '" ++ jobName ++ js "' runsOn") runsOn)
  let overlap := (exactLabels exclude).filter (· ∈ exactLabels «include»)
  if overlap = [] then .ok ()
  else compilerError .E112 (js "Job \"" ++ jobName ++ js "\": labels and exclude overlap on [" ++
    JsString.join (overlap.map js) (js ", ") ++ js "]. A label cannot be both required and excluded.")

/-- The checks before anything of a job is written. -/
def checkJob (job : Job) : Except CompilerError Unit := do
  if job.runsOn.isSome ∧ job.runsOnAll.isSome then
    compilerError .E108 (js "job '" ++ job.name ++ js "': runsOn and runsOnAll are mutually exclusive")
  else if job.invoke.isNone ∧ job.runsOn.isNone ∧ job.runsOnAll.isNone then
    compilerError .E109 (js "job '" ++ job.name ++ js "': one of runsOn or runsOnAll is required")
  else if job.maxParallel.any (· < 1) then
    compilerError .E110 (js "job '" ++ job.name ++ js "': maxParallel must be >= 1")
  else
    match job.runsOn with
    | none => .ok ()
    | some runsOn => validateRunsOn labels runsOn job.name

def checkResources (job : Job) : Except CompilerError Unit :=
  match job.resources.map labels.validateResourceRequest with
  | some (.error reason) =>
    compilerError .E111 (js "Job \"" ++ job.name ++ js "\": invalid resources -- " ++ reason)
  | _ => .ok ()

/-- An approval of a job may not come on drift. -/
def transformApproval (approval : ApprovalConfig) : Except CompilerError LockApproval := do
  let normalized ← normalizeApproval host approval
  if normalized.when = .drift then
    compilerError .E113 (js "approval.when \"drift\" is only valid on steps (found at job scope)")
  else .ok normalized

def transformJob (objects : StepObjects) (configPath : JsString) (index : ℕ)
    (uuidToName : JsString → Option JsString) (job : Job) : Except CompilerError LockJob := do
  checkJob labels job
  checkResources labels job
  let runsOn ← job.runsOn.mapM fun runsOn =>
    thrown (labels.normalizeRunsOnToMatchers (js "job '" ++ job.name ++ js "' runsOn") runsOn)
  let runsOnAll ← job.runsOnAll.mapM fun runsOnAll =>
    thrown (labels.normalizeRunsOnAllToMatchers (js "job '" ++ job.name ++ js "' runsOnAll") runsOnAll)
  let steps ← transformSteps host objects job.steps
  let approval ← job.approval.mapM (transformApproval host)
  .ok {
    name := job.name
    runsOn := runsOn.map (·.1)
    excludeLabels := (runsOn.map (·.2)).filter (0 < ·.length)
    runsOnPick := job.runsOn.map runsOnPickFromInput
    runsOnAll
    onUnreachable := job.onUnreachable
    includeUninitialized := job.includeUninitialized
    gitCredentials := job.gitCredentials
    maxParallel := job.maxParallel
    failFast := job.failFast
    invoke := job.invoke.map lockInvoke
    needs := (resolveNeedsForLock uuidToName job.needs).1
    dependsOnGroups := (resolveNeedsForLock uuidToName job.needs).2
    steps
    matrix := job.matrix.map (transformMatrix job.name configPath)
    included := job.included
    excluded := job.excluded
    rules := job.rules.map fun rules => transformRules rules configPath (some index)
    description := job.description
    checkout := job.checkout
    cache := job.cache.map normalizeCacheSpecs
    container := job.container
    sandbox := job.sandbox
    contexts := if contextRefs job = [] then none else some ((contextRefs job).map transformContextRef)
    env := job.env.bind (·.value?)
    dynamicEnv := job.env.bind (·.mark)
    concurrencyGroup := job.concurrencyGroup.bind (·.value?)
    dynamicConcurrencyGroup := job.concurrencyGroup.bind (·.mark)
    hasOnCancel := hookFlag job.onCancel
    hasCleanup := hookFlag job.cleanup
    hasOnSuccess := hookFlag job.onSuccess
    hasOnFailure := hookFlag job.onFailure
    hasBeforeStep := hookFlag job.beforeStep
    hasAfterStep := hookFlag job.afterStep
    gracePeriod := job.gracePeriod
    timeout := job.timeout
    resources := job.resources
    init := job.init
    approval }

end

end Kici.Lock
