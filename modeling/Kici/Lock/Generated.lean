import Kici.Lock.Jobs
import Kici.Lock.StepNames

/-!
# Generated jobs in the lock

The jobs that a generator gave are written into the lock by the agent that ran it
(`serializeJobsToLock`), one after the other (`serializeJob`).
-/

namespace Kici.Lock

/-- The most jobs a generator may give. -/
def MAX_DYNAMIC_JOBS : ℕ := 100

/-- The values of the fields that are functions, in order; one that gives nothing is left out. -/
def resolveContexts : List (Dynamic JsString) → Except JsString (List LockContext)
  | [] => .ok []
  | .value name :: refs => do
    let contexts ← resolveContexts refs
    .ok (⟨name, false⟩ :: contexts)
  | .function result :: refs => do
    let value ← result
    let contexts ← resolveContexts refs
    .ok ((value.map fun name => ⟨name, false⟩).toList ++ contexts)

/-- A field that may be a function: its value, or what the function gives. -/
def resolveField {α : Type} : Option (Dynamic α) → Except JsString (Option α)
  | none => .ok none
  | some (.value a) => .ok (some a)
  | some (.function result) => result

/-- A matrix, or what its function gives; one that gives nothing throws. -/
def serializeMatrix (jobName : JsString) : Dynamic MatrixValues → Except JsString LockMatrix
  | .value values => .ok (.values values)
  | .function (.error message) =>
    .error (js "Matrix expansion failed for job '" ++ jobName ++ js "': " ++ message)
  | .function (.ok (some values)) => .ok (.values values)
  | .function (.ok none) =>
    .error (js "Job '" ++ jobName ++ js ("': dynamic matrix function returned an unsupported value " ++
      "(expected array or object, got undefined)"))

/-- Which names and groups needs may refer to. -/
structure NeedTargets where
  generatedNames : List JsString
  staticNames : List JsString
  allowedGroups : List JsString

namespace NeedTargets

variable (targets : NeedTargets)

def checkName (name : JsString) : Except JsString Unit :=
  if name ∈ targets.generatedNames ++ targets.staticNames then .ok ()
  else .error (js "Job dependency '" ++ name ++ js "' not found in workflow jobs (checked: " ++
    js (toString targets.generatedNames.dedup.length) ++ js " generated, " ++
    js (toString targets.staticNames.dedup.length) ++ js " static)")

def checkGroup (group : JsString) : Except JsString Unit :=
  if group ∈ targets.allowedGroups then .ok ()
  else .error (js "Dynamic group '" ++ group ++ js "' not found in workflow (available groups: " ++
    (if targets.allowedGroups = [] then js "none"
      else JsString.join targets.allowedGroups (js ", ")) ++ js ")")

def resolveNeed : Need → Except JsString LockNeed
  | .text name | .job name => do
    targets.checkName name
    .ok (.name name)
  | .groupRef group when? | .groupEntry group when? => do
    targets.checkGroup group
    .ok (.group group (resolveWhenToRunOn when?))
  | .entry name when? => do
    targets.checkName name
    .ok (.entry name (resolveWhenToRunOn when?))

def resolveNeeds (needs : Option (List Need)) : Except JsString (List LockNeed) :=
  (needs.getD []).mapM targets.resolveNeed

end NeedTargets

/-- Without a selector of its own an invoke gate has no labels; any other job is read as if it had
one, which throws. -/
def serializeRunsOn (labels : LabelHost) (job : Job) :
    Except JsString (List LabelMatcher × List LabelMatcher) :=
  match job.runsOn with
  | some runsOn => labels.normalizeRunsOnToMatchers
    (js "generated job '" ++ job.name ++ js "' runsOn") runsOn
  | none =>
    if job.invoke.isSome then .ok ([], [])
    else .error (js "Cannot read properties of undefined (reading 'labels')")

def serializeJob (labels : LabelHost) (objects : StepObjects) (targets : NeedTargets) (job : Job) :
    Except JsString LockJob := do
  let (runsOn, excludeLabels) ← serializeRunsOn labels job
  let contexts ← resolveContexts (contextRefs job)
  let env ← resolveField job.env
  let concurrencyGroup ← resolveField job.concurrencyGroup
  let matrix ← job.matrix.mapM (serializeMatrix job.name)
  let needs ← targets.resolveNeeds job.needs
  .ok {
    name := job.name
    runsOn := if job.invoke.isSome ∧ runsOn = [] then none else some runsOn
    excludeLabels := if excludeLabels = [] then none else some excludeLabels
    needs
    dependsOnGroups := groupNames (needs.filterMap (·.group?))
    steps := serializeSteps objects job.steps
    matrix
    included := job.included
    excluded := job.excluded
    description := job.description.filter (· ≠ [])
    contexts := if contexts = [] then none else some contexts
    env
    concurrencyGroup
    invoke := job.invoke.map lockInvoke }

/-- A name that was there before throws. -/
def checkNames : (roundNames names : List JsString) → Except JsString Unit
  | _, [] => .ok ()
  | roundNames, name :: names =>
    if name ∈ roundNames then .error (js "Duplicate job name '" ++ name ++ js "' in dynamic job output")
    else checkNames (name :: roundNames) names

def serializeJobsToLock (labels : LabelHost) (objects : StepObjects)
    (staticNames allowedGroups seenNames : List JsString) (jobs : List Job) :
    Except JsString (List LockJob) := do
  if MAX_DYNAMIC_JOBS < jobs.length then
    .error (js "DynamicJobFn generated " ++ js (toString jobs.length) ++
      js " jobs, exceeding the limit of " ++ js (toString MAX_DYNAMIC_JOBS))
  else do
    checkNames seenNames (jobs.map (·.name))
    jobs.mapM (serializeJob labels objects ⟨jobs.map (·.name), staticNames, allowedGroups⟩)

end Kici.Lock
