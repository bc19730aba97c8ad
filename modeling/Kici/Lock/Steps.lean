import Kici.Js.Number

/-!
# The steps of a job in the lock

What an author gives as the steps of a job (`StepInput`): bare functions, steps, with or without a
name, and parallel groups of these. Steps are objects, and a list may hold the same one more than
once: it holds references, and the objects are kept apart (`StepObjects`).

The compiler writes the steps of a static job into the lock (`transformSteps`), and an agent those
of a generated job (`serializeSteps`). The first numbers the steps without a name, from one; the
second gives them their position in the flat list, from zero.
-/

namespace Kici.Lock

/-! ## Steps and groups -/

inductive RetryBackoff
  | fixed
  | exponential

structure NormalizedRetry where
  maxAttempts : Rat
  delayMs : Rat
  backoff : RetryBackoff
  maxDelayMs : Rat

structure CacheSpec where
  key : JsString
  paths : List JsString
  restoreKeys : Option (List JsString) := none

inductive CacheInput
  | one (spec : CacheSpec)
  | many (specs : List CacheSpec)

def normalizeCacheSpecs : CacheInput → List CacheSpec
  | .one spec => [spec]
  | .many specs => specs

inductive ApproverClause
  | team (name : JsString)
  | user (name : JsString)

inductive ApprovalWhen
  | always
  | drift
  deriving DecidableEq

inductive ApprovalConfig
  /-- `true`: anyone who may approve. -/
  | anyone
  | clauses (clauses : List ApproverClause)
  | options (when? : Option ApprovalWhen) (approvers : Option (List ApproverClause))
    (reason : Option JsString)
    (timeout : Option Rat)

structure LockApproval where
  clauses : List ApproverClause
  reason : Option JsString := none
  timeoutSeconds : Option Rat := none
  «when» : ApprovalWhen

structure SourceLocation where
  file : JsString
  line : ℕ
  column : ℕ

/-- A step; the name is empty if it has none. What it runs is left out, and of its rules all but
their labels. -/
structure Step where
  name : JsString
  /-- The keys of the schema of its outputs. -/
  outputs : Option (List JsString) := none
  continueOnError : Option Bool := none
  timeout : Option Rat := none
  retry : Option NormalizedRetry := none
  cache : Option CacheInput := none
  sourceLocation : Option SourceLocation := none
  rules : Option (List JsString) := none
  onCancel : Bool := false
  cleanup : Bool := false
  check : Bool := false
  whenInSync : Bool := false
  approval : Option ApprovalConfig := none

/-- What every reference stands for. -/
abbrev StepObjects := ℕ → Step

/-- A bare function, or a step. -/
inductive FlatStepInput
  | bare
  | object (ref : ℕ)
  deriving DecidableEq

/-- A child of a group. A group within a group is an object that only the compiler tells from a
step. -/
structure GroupChild where
  input : FlatStepInput
  isParallelGroup : Bool := false
  deriving DecidableEq

structure ParallelGroup where
  name : Option JsString := none
  failFast : Bool := true
  maxParallel : Option Rat := none
  steps : List GroupChild
  deriving DecidableEq

inductive StepInput
  | flat (input : FlatStepInput)
  | parallel (group : ParallelGroup)
  deriving DecidableEq

/-- The steps of a list in a row, with those of groups in their places. -/
def flatInputs (steps : List StepInput) : List FlatStepInput :=
  steps.flatMap fun entry => match entry with
    | .flat input => [input]
    | .parallel group => group.steps.map (·.input)

theorem flatInputs_flat (input : FlatStepInput) (steps : List StepInput) :
    flatInputs (.flat input :: steps) = input :: flatInputs steps := rfl

theorem flatInputs_parallel (group : ParallelGroup) (steps : List StepInput) :
    flatInputs (.parallel group :: steps) = group.steps.map (·.input) ++ flatInputs steps := rfl

/-! ## The lock -/

structure LockRule where
  label : JsString
  file : JsString
  index : ℕ

/-- A step of the lock; a flag is written if it holds. -/
structure LockStep where
  name : JsString
  hasOutputs : Bool
  continueOnError : Option Bool := none
  timeout : Option Rat := none
  retry : Option NormalizedRetry := none
  cache : Option (List CacheSpec) := none
  sourceLocation : Option SourceLocation := none
  hasRules : Bool := false
  rules : Option (List LockRule) := none
  hasOnCancel : Bool := false
  hasCleanup : Bool := false
  hasCheck : Bool := false
  hasWhenInSync : Bool := false
  approval : Option LockApproval := none

structure LockParallelStep where
  name : JsString
  failFast : Bool
  maxParallel : Option Rat := none
  children : List LockStep

inductive LockStepEntry
  | sequential (step : LockStep)
  | parallel (group : LockParallelStep)

def stepName (n : ℕ) : JsString := js "step-" ++ js (toString n)

theorem stepName_injective {m n : ℕ} (h : stepName m = stepName n) : m = n :=
  js_toString_injective (List.append_cancel_left h)

theorem stepName_ne_nil (n : ℕ) : stepName n ≠ [] := by
  have hstep : js "step-" ≠ [] := by decide
  exact List.append_ne_nil_of_left_ne_nil hstep _

/-! ## Errors of the compiler -/

inductive ErrorCode
  | E101 | E102 | E103 | E104 | E106 | E107 | E108 | E109 | E110 | E111 | E112 | E113 | E114
  | E115 | E116 | E117 | E125 | E126
  deriving DecidableEq

/-- An error of the compiler, or one that was thrown without a code. -/
structure CompilerError where
  code : Option ErrorCode
  message : JsString
  deriving DecidableEq

def compilerError {α : Type} (code : ErrorCode) (message : JsString) : Except CompilerError α :=
  .error ⟨some code, message⟩

/-- What the compiler takes from the runtime: paths relative to the root of the repository, and
numbers as texts. -/
structure CompilerHost where
  makeRelativePath : JsString → JsString
  numberText : Rat → JsString

/-- A host on which paths and numbers do not matter. -/
def plainHost : CompilerHost := ⟨id, fun _ => []⟩

def normalizeApproval (host : CompilerHost) : ApprovalConfig → Except CompilerError LockApproval
  | .anyone => .ok { clauses := [], «when» := .always }
  | .clauses clauses => .ok { clauses, «when» := .always }
  | .options when? approvers reason timeout =>
    if timeout.any fun seconds => seconds.den ≠ 1 ∨ seconds ≤ 0 then
      .error ⟨none, js "approval.timeout must be a positive integer number of seconds, got " ++
        (timeout.map host.numberText).getD []⟩
    else .ok {
      clauses := approvers.getD []
      reason
      timeoutSeconds := timeout
      «when» := when?.getD .always }

/-- An approval on drift comes between the check of a step and its body. -/
def assertStepApprovalCheckFacet (host : CompilerHost) (step : Step) : Except CompilerError Unit :=
  match step.approval with
  | none => .ok ()
  | some approval => do
    let normalized ← normalizeApproval host approval
    if normalized.when = .drift ∧ step.check = false then
      compilerError .E114 (js "step '" ++ (if step.name = [] then js "(unnamed)" else step.name) ++
        js "': approval.when \"drift\" requires a check facet")
    else .ok ()

def transformRules (rules : List JsString) (file : JsString) (parentIndex : Option ℕ) : List LockRule :=
  rules.zipIdx.map fun (label, index) => ⟨label, file, (parentIndex.map (· * 100 + index)).getD index⟩

/-! ## The compiler -/

/-- The step in the lock, and the counter of steps without a name. -/
def transformSequentialStep (host : CompilerHost) (objects : StepObjects) (counter : ℕ) :
    FlatStepInput → Except CompilerError (LockStep × ℕ)
  | .bare => .ok ({ name := stepName (counter + 1), hasOutputs := false }, counter + 1)
  | .object ref => do
    let step := objects ref
    let counter' := if step.name = [] then counter + 1 else counter
    assertStepApprovalCheckFacet host step
    let approval ← step.approval.mapM (normalizeApproval host)
    .ok ({
      name := if step.name = [] then stepName (counter + 1) else step.name
      hasOutputs := step.outputs.any (0 < ·.length)
      continueOnError := step.continueOnError
      timeout := step.timeout
      retry := step.retry
      cache := step.cache.map normalizeCacheSpecs
      sourceLocation := step.sourceLocation.map fun loc =>
        { loc with file := host.makeRelativePath loc.file }
      hasRules := step.rules.any (0 < ·.length)
      rules := (step.rules.filter (0 < ·.length)).map fun rules =>
        transformRules rules (host.makeRelativePath ((step.sourceLocation.map (·.file)).getD [])) none
      hasOnCancel := step.onCancel
      hasCleanup := step.cleanup
      hasCheck := step.check
      hasWhenInSync := step.whenInSync
      approval }, counter')

/-- The children of a group; the names of those before. -/
def transformChildren (host : CompilerHost) (objects : StepObjects) (counter : ℕ)
    (seen : List JsString) : List GroupChild → Except CompilerError (List LockStep × ℕ)
  | [] => .ok ([], counter)
  | child :: rest => do
    if child.isParallelGroup then
      compilerError .E116 (js "job step: nested parallel groups are not supported")
    else
      let (lockChild, counter) ← transformSequentialStep host objects counter child.input
      if lockChild.name ∈ seen then
        compilerError .E117
          (js "job step: duplicate step name '" ++ lockChild.name ++ js "' in parallel group")
      else
        let (children, counter) ← transformChildren host objects counter (seen ++ [lockChild.name]) rest
        .ok (lockChild :: children, counter)

def transformParallelGroup (host : CompilerHost) (objects : StepObjects) (counter groupOrdinal : ℕ)
    (group : ParallelGroup) : Except CompilerError (LockParallelStep × ℕ) :=
  if group.steps = [] then compilerError .E115 (js "job step: empty parallel group not allowed")
  else do
    let (children, counter) ← transformChildren host objects counter [] group.steps
    .ok ({
      name := group.name.getD (js "parallel-" ++ js (toString groupOrdinal))
      failFast := group.failFast
      maxParallel := group.maxParallel
      children }, counter)

def transformEntries (host : CompilerHost) (objects : StepObjects) (counter groupOrdinal : ℕ) :
    List StepInput → Except CompilerError (List LockStepEntry)
  | [] => .ok []
  | .flat input :: rest => do
    let (step, counter) ← transformSequentialStep host objects counter input
    let entries ← transformEntries host objects counter groupOrdinal rest
    .ok (.sequential step :: entries)
  | .parallel group :: rest => do
    let (lockGroup, counter) ← transformParallelGroup host objects counter groupOrdinal group
    let entries ← transformEntries host objects counter (groupOrdinal + 1) rest
    .ok (.parallel lockGroup :: entries)

def transformSteps (host : CompilerHost) (objects : StepObjects) (steps : List StepInput) :
    Except CompilerError (List LockStepEntry) :=
  transformEntries host objects 0 0 steps

/-! ## Generated jobs -/

def serializeSequentialStep (objects : StepObjects) (index : ℕ) : FlatStepInput → LockStep
  | .bare => { name := stepName index, hasOutputs := false }
  | .object ref =>
    let step := objects ref
    { name := if step.name = [] then stepName index else step.name
      hasOutputs := step.outputs.isSome
      continueOnError := step.continueOnError.filter (· = true)
      timeout := step.timeout.filter (· ≠ 0)
      retry := step.retry }

def serializeChildren (objects : StepObjects) (flatIndex : ℕ) : List GroupChild → List LockStep
  | [] => []
  | child :: rest =>
    serializeSequentialStep objects flatIndex child.input :: serializeChildren objects
      (flatIndex + 1) rest

def serializeEntries (objects : StepObjects) (flatIndex : ℕ) : List StepInput → List LockStepEntry
  | [] => []
  | .flat input :: rest =>
    .sequential (serializeSequentialStep objects flatIndex input) :: serializeEntries objects
      (flatIndex + 1) rest
  | .parallel group :: rest =>
    let children := serializeChildren objects flatIndex group.steps
    .parallel {
      name := group.name.getD (js "parallel-" ++ (children.head?.map (·.name)).getD (js "group"))
      failFast := group.failFast
      maxParallel := group.maxParallel
      children } :: serializeEntries objects (flatIndex + group.steps.length) rest

def serializeSteps (objects : StepObjects) (steps : List StepInput) : List LockStepEntry :=
  serializeEntries objects 0 steps

end Kici.Lock
