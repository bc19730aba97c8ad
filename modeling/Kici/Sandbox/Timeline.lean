import Kici.Foundation.System

/-!
# The timeline of a job

What the runner of a job shows as its steps (`PseudoStep`): the steps, the observer hooks before and
after each, the hooks that complete or cancel the job, and the operations on caches. Each has a row
under a step index of its own formula (`PseudoStep.index`).

Whatever runs with a step context has a handle on the secrets of the job, which the runner registers
under an index and disposes by index (`StepTaskRegistry`): an observer hook under the index of its
step, any other hook under that of its row. A handle keeps the files that were mounted and the
variables that were exposed with it until it is disposed: then its directory is removed. Whoever
mounts a file and finds no directory makes one, and the last one that is made is that of the handle.

The runner restores the caches of the job, walks its nodes, runs the completion hooks unless the job
is aborted, saves the caches, and if the job is aborted runs the hooks that cancel it. The steps of
a parallel group run side by side. What steps and hooks do, and how they end, is an action.
-/

namespace Kici

open Option

/-- A step, or what has a row like one. -/
inductive PseudoStep
  | step (stepIndex : ℕ)
  | beforeStep (stepIndex : ℕ)
  | afterStep (stepIndex : ℕ)
  /-- The hooks that complete a job, in the order in which they run. -/
  | completion (k : ℕ)
  /-- The hooks that cancel a job with so many results. -/
  | cancel (results k : ℕ)
  /-- The operations on caches, of the job (`0`) or of a step (`stepIndex + 1`). -/
  | cache (owner k : ℕ)
  deriving DecidableEq

/-- Pseudo-step indices reserved for each owner of caches. -/
def CACHE_INDEX_BLOCK : ℕ := 1000

/-- The step index of a row, in a job of so many steps. -/
def PseudoStep.index (stepCount : ℕ) : PseudoStep → ℕ
  | step stepIndex => stepIndex
  | beforeStep stepIndex => stepCount + stepIndex * 2
  | afterStep stepIndex => stepCount + stepIndex * 2 + 1
  | completion k => stepCount + k
  | cancel results k => stepCount + results + k
  | cache owner k => stepCount * 3 + 100 + owner * CACHE_INDEX_BLOCK + k

structure TimelineStep where
  stepIndex : ℕ
  /-- How many caches the step declares. -/
  caches : ℕ := 0
  onCancel : Bool := false
  cleanup : Bool := false

/-- A step alone, or the steps of a parallel group. -/
structure TimelineNode where
  children : List TimelineStep
  parallel : Bool := false
  /-- The most steps that run side by side. -/
  limit : ℕ := 1

/-- The hooks of a job. -/
structure JobHooks where
  beforeStep : Bool := false
  afterStep : Bool := false
  onSuccess : Bool := false
  onFailure : Bool := false
  onCancel : Bool := false
  cleanup : Bool := false

/-- A job with its steps in their flat order. -/
structure TimelineJob where
  nodes : List TimelineNode
  caches : ℕ := 0
  hooks : JobHooks := {}
  indices : (nodes.flatMap (·.children)).map (·.stepIndex) = List.range
    (nodes.flatMap (·.children)).length

namespace TimelineJob

variable (job : TimelineJob)

def steps : List TimelineStep := job.nodes.flatMap (·.children)

def stepCount : ℕ := job.steps.length

/-- How many hooks run to complete the job. -/
def completionHooks (failed : Bool) : ℕ :=
  (if failed then job.hooks.onFailure else job.hooks.onSuccess).toNat + job.hooks.cleanup.toNat

/-- How many hooks run to cancel the job: those of the last step with a result, and those of the
job. -/
def cancelHooks (results : ℕ) : ℕ :=
  (if results = 0 then 0 else
    (job.steps[results - 1]?.map fun last => last.onCancel.toNat + last.cleanup.toNat).getD 0) +
  job.hooks.onCancel.toNat + job.hooks.cleanup.toNat

end TimelineJob

/-! ## Iterations and hooks -/

/-- What an iteration or a hook does. -/
inductive UnitOp
  /-- A context is created, and runs with a row. -/
  | context (row : PseudoStep)
  /-- A row is reported without a context. -/
  | report (row : PseudoStep)
  /-- A cache of the step is restored or saved. -/
  | cache
  | dispose

/-- How the rules and the approval of a step turn out, and how many caches are saved if it runs. -/
inductive IterationOutcome
  | skipped
  | errored
  | rejected
  | runs (saves : ℕ)

/-- What `runStepIteration` does. -/
def stepIteration (hooks : JobHooks) (step : TimelineStep) : IterationOutcome → List UnitOp
  | .skipped | .errored | .rejected => [.report (.step step.stepIndex), .dispose]
  | .runs saves =>
    (if hooks.beforeStep then [.context (.beforeStep step.stepIndex)] else []) ++
    List.replicate step.caches .cache ++
    [.context (.step step.stepIndex)] ++
    List.replicate (min saves step.caches) .cache ++
    (if hooks.afterStep then [.context (.afterStep step.stepIndex)] else []) ++
    [.dispose]

/-- An iteration or a hook that runs. -/
structure TimelineUnit where
  id : ℕ
  /-- The index under which its contexts are registered. -/
  stepIndex : ℕ
  isStep : Bool
  ops : List UnitOp

/-- A handle on the secrets, of the context of an iteration or a hook. -/
structure SecretsHandle where
  owner : ℕ
  stepIndex : ℕ
  disposals : ℕ := 0
  /-- The directory of the handle. -/
  stepTmpHandle : Option ℕ := none
  /-- Whether each directory that was made is still there. -/
  dirs : List Bool := []
  /-- The mounts that are under way, by the directory they found; `none` has one made. -/
  calls : List (Option ℕ) := []
  /-- The files, by the directory they are in; `none` is outside of it (a name may be `../x`). -/
  mountedFiles : List (Option ℕ) := []
  exposedVars : List String := []

/-- What happens to a mount of a file. -/
inductive MountEvent
  /-- `mountFile` or `exposeFile` is called, and looks for the directory. -/
  | call
  | makeTempDir (call : ℕ)
  /-- The file is written, and may be exposed in a variable. -/
  | writeFile (call : ℕ) (outside : Bool) (envVar : Option String)
  | fails (call : ℕ)

namespace SecretsHandle

variable (handle : SecretsHandle)

/-- The handle is disposed; the removal of its directory may fail. -/
def dispose (removed : Bool) : SecretsHandle :=
  { handle with
    disposals := handle.disposals + 1
    exposedVars := []
    stepTmpHandle := if removed then none else handle.stepTmpHandle
    dirs := if removed then handle.stepTmpHandle.elim handle.dirs (handle.dirs.set · false)
      else handle.dirs
    mountedFiles :=
      if removed then handle.mountedFiles.filter fun dir => dir = none ∨ dir ≠ handle.stepTmpHandle
      else handle.mountedFiles }

def mount : MountEvent → Option SecretsHandle
  | .call => some { handle with calls := handle.calls ++ [handle.stepTmpHandle] }
  | .makeTempDir i =>
    if handle.calls[i]? = some none then
      some { handle with
        stepTmpHandle := some handle.dirs.length
        dirs := handle.dirs ++ [true]
        calls := handle.calls.set i (some handle.dirs.length) }
    else none
  | .writeFile i outside envVar =>
    match handle.calls[i]? with
    | some (some dir) =>
      if outside || handle.dirs[dir]? = some true then
        some { handle with
          calls := handle.calls.eraseIdx i
          mountedFiles := handle.mountedFiles ++ [if outside then none else some dir]
          exposedVars := handle.exposedVars ++ envVar.toList }
      else none
    | _ => none
  | .fails i => if i < handle.calls.length then some { handle with calls := handle.calls.eraseIdx i }
    else none

end SecretsHandle

/-! ## The run -/

inductive JobStage
  | restoring
  | walking
  /-- So many completion hooks have run, and so many are left. -/
  | completing (run left : ℕ)
  | saving (succeeded : Bool)
  /-- So many results there were; so many cancel hooks have run, and so many are left. -/
  | cancelling (results run left : ℕ)
  | finished
  deriving DecidableEq

structure TimelineRun where
  stage : JobStage := .restoring
  nodes : List TimelineNode
  /-- The steps of the node that are still to begin, and how many may run side by side. -/
  waiting : List TimelineStep := []
  parallel : Bool := false
  limit : ℕ := 1
  inFlight : List TimelineUnit := []
  nextId : ℕ := 0
  /-- How many steps have a result. -/
  results : ℕ := 0
  failed : Bool
  /-- A step has failed that breaks the loop. -/
  broken : Bool := false
  aborted : Bool := false
  /-- The handles, and the one registered under each index. -/
  handles : List SecretsHandle := []
  registry : ℕ → Option ℕ := fun _ => none
  /-- How many operations on caches each owner has made. -/
  cacheCounters : ℕ → ℕ := fun _ => 0
  rows : List PseudoStep := []

/-- How an iteration or a hook ends: a failure may fail the job, and may break the loop as well. -/
inductive UnitResult
  | passed
  | failed
  | broke
  deriving DecidableEq

inductive TimelineAction
  | restoreJobCache
  | beginWalk
  | nextNode
  /-- The next step begins; what its rules and its approval say. -/
  | begin (outcome : IterationOutcome)
  /-- The next step of a group is cancelled, as another has failed. -/
  | skip
  /-- The unit at the place goes on; whether a directory is removed with it, and how it ends if it
  does. -/
  | op (place : ℕ) (removed : Bool) (result : UnitResult)
  /-- A body mounts a file with the handle of its context. -/
  | mount (handle : ℕ) (event : MountEvent)
  | abort
  | endWalk
  | completionHook
  | endCompletion
  | saveJobCache
  /-- The caches are saved; a forced abort runs no hooks. -/
  | endSaving (force : Bool)
  | cancelHook

namespace TimelineRun

variable (job : TimelineJob) (s : TimelineRun)

/-- Nothing of the node is left to be done. -/
def idle : Bool := s.inFlight.isEmpty && s.waiting.isEmpty

def addRow (row : PseudoStep) : TimelineRun := { s with rows := s.rows ++ [row] }

/-- The next operation on caches of an owner. -/
def addCacheRow (owner : ℕ) : TimelineRun :=
  { s with
    rows := s.rows ++ [.cache owner (s.cacheCounters owner)]
    cacheCounters := Function.update s.cacheCounters owner (s.cacheCounters owner + 1) }

/-- `createStepContext`: the new handle takes the slot of the index. -/
def createStepContext (owner stepIndex : ℕ) : TimelineRun :=
  { s with
    handles := s.handles ++ [{ owner, stepIndex }]
    registry := Function.update s.registry stepIndex (some s.handles.length) }

/-- `disposeStepResources`: the handle in the slot of the index, if there is one. -/
def disposeStepResources (stepIndex : ℕ) (removed : Bool) : TimelineRun :=
  match s.registry stepIndex with
  | none => s
  | some ref =>
    { s with
      handles := s.handles.modify ref (·.dispose removed)
      registry := Function.update s.registry stepIndex none }

/-- A unit begins. -/
def launch (stepIndex : ℕ) (isStep : Bool) (ops : List UnitOp) : TimelineRun :=
  { s with
    inFlight := s.inFlight ++ [⟨s.nextId, stepIndex, isStep, ops⟩]
    nextId := s.nextId + 1 }

/-- What an operation does. -/
def perform (unit : TimelineUnit) (removed : Bool) : UnitOp → TimelineRun
  | .context row => (s.createStepContext unit.id unit.stepIndex).addRow row
  | .report row => s.addRow row
  | .cache => s.addCacheRow (unit.stepIndex + 1)
  | .dispose => s.disposeStepResources unit.stepIndex removed

/-- The unit at the place goes on with the operations that are left, or is over. -/
def proceed (place : ℕ) (unit : TimelineUnit) (rest : List UnitOp) (result : UnitResult) : TimelineRun :=
  match rest with
  | [] => { s with
      inFlight := s.inFlight.eraseIdx place
      results := if unit.isStep then s.results + 1 else s.results
      failed := s.failed || result ≠ .passed
      broken := s.broken || result = .broke }
  | _ => { s with inFlight := s.inFlight.set place { unit with ops := rest } }

def step : TimelineAction → Option TimelineRun
  | .restoreJobCache =>
    if s.stage = .restoring ∧ s.cacheCounters 0 < job.caches then some (s.addCacheRow 0) else none
  | .beginWalk => if s.stage = .restoring then some { s with stage := .walking } else none
  | .nextNode =>
    match s.nodes with
    | [] => none
    | node :: nodes =>
      if s.stage = .walking ∧ s.idle ∧ s.broken = false ∧ s.aborted = false then
        some { s with nodes, waiting := node.children, parallel := node.parallel, limit := node.limit }
      else none
  | .begin outcome =>
    match s.waiting with
    | [] => none
    | step :: waiting =>
      if s.inFlight.length < s.limit then
        some ({ s with waiting }.launch step.stepIndex true (stepIteration job.hooks step outcome))
      else none
  | .skip =>
    match s.waiting with
    | [] => none
    | step :: waiting =>
      if s.parallel = true ∧ s.broken = true ∧ s.inFlight.length < s.limit then
        some ({ s with waiting, results := s.results + 1 }.addRow (.step step.stepIndex))
      else none
  | .op place removed result =>
    match s.inFlight[place]? with
    | none => none
    | some unit =>
      match unit.ops with
      | [] => none
      | op :: rest => some ((s.perform unit removed op).proceed place unit rest result)
  | .mount ref event => (s.handles[ref]?).bind fun handle =>
    (handle.mount event).map fun handle => { s with handles := s.handles.set ref handle }
  | .abort => some { s with aborted := true }
  | .endWalk =>
    if s.stage = .walking ∧ s.idle ∧ (s.nodes = [] ∨ s.broken = true ∨ s.aborted = true) then
      some { s with stage := if s.aborted then .saving false
        else .completing 0 (job.completionHooks s.failed) }
    else none
  | .completionHook =>
    match s.stage with
    | .completing run (left + 1) =>
      if s.idle then
        some ({ s with stage := .completing (run + 1) left }.launch (job.stepCount + run) false
          [.context (.completion run)])
      else none
    | _ => none
  | .endCompletion =>
    match s.stage with
    | .completing _ 0 =>
      if s.idle then some { s with stage := .saving (!s.aborted && !s.failed) } else none
    | _ => none
  | .saveJobCache =>
    if s.stage = .saving true ∧ s.cacheCounters 0 < 2 * job.caches then some (s.addCacheRow 0) else none
  | .endSaving force =>
    match s.stage with
    | .saving _ => some { s with
        stage := if s.aborted = true ∧ force = false then .cancelling s.results 0
          (job.cancelHooks s.results)
          else .finished }
    | _ => none
  | .cancelHook =>
    match s.stage with
    | .cancelling results run (left + 1) =>
      if s.idle then
        some ({ s with stage := .cancelling results (run + 1) left }.launch
          (job.stepCount + results + run) false [.context (.cancel results run), .dispose])
      else none
    | _ => none

/-! ## What steps do -/

variable {job s} {t : TimelineRun}

theorem proceed_cons {place : ℕ} {unit : TimelineUnit} {op : UnitOp} {rest : List UnitOp}
    {result : UnitResult} : s.proceed place unit (op :: rest) result =
      { s with inFlight := s.inFlight.set place { unit with ops := op :: rest } } := rfl

theorem op_cases {place : ℕ} {removed : Bool} {result : UnitResult}
    (h : s.step job (.op place removed result) = some t) :
    ∃ unit op rest, s.inFlight[place]? = some unit ∧ unit.ops = op :: rest ∧
      t = (s.perform unit removed op).proceed place unit rest result := by
  simp only [step] at h
  split at h
  · cases h
  next unit hunit =>
    split at h
    · cases h
    next op rest hops => exact ⟨unit, op, rest, hunit, hops, (some.inj h).symm⟩

theorem begin_cases {outcome : IterationOutcome} (h : s.step job (.begin outcome) = some t) :
    ∃ step waiting, s.waiting = step :: waiting ∧ t =
      { s with waiting }.launch step.stepIndex true (stepIteration job.hooks step outcome) := by
  simp only [step] at h
  split at h
  · cases h
  next step waiting hwaiting =>
    obtain ⟨-, h⟩ := ite_none_right_eq_some.1 h
    exact ⟨step, waiting, hwaiting, (some.inj h).symm⟩

theorem skip_cases (h : s.step job .skip = some t) :
    ∃ step waiting, s.waiting = step :: waiting ∧ t =
      { s with waiting, results := s.results + 1 }.addRow (.step step.stepIndex) := by
  simp only [TimelineRun.step] at h
  split at h
  · cases h
  next step waiting hwaiting =>
    obtain ⟨-, h⟩ := ite_none_right_eq_some.1 h
    exact ⟨step, waiting, hwaiting, (some.inj h).symm⟩

theorem nextNode_cases (h : s.step job .nextNode = some t) :
    ∃ node nodes, s.nodes = node :: nodes ∧ s.stage = .walking ∧ s.waiting = [] ∧ t =
      { s with nodes, waiting := node.children, parallel := node.parallel, limit := node.limit } := by
  simp only [step] at h
  split at h
  · cases h
  next node nodes hnodes =>
    obtain ⟨⟨hstage, hidle, -⟩, h⟩ := ite_none_right_eq_some.1 h
    obtain ⟨-, hwaiting⟩ := Bool.and_eq_true_iff.1 hidle
    exact ⟨node, nodes, hnodes, hstage, List.isEmpty_iff.1 hwaiting, (some.inj h).symm⟩

theorem completionHook_cases (h : s.step job .completionHook = some t) :
    ∃ run left, s.stage = .completing run (left + 1) ∧ t =
      { s with stage := .completing (run + 1) left }.launch (job.stepCount + run) false
        [.context (.completion run)] := by
  simp only [step] at h
  split at h
  next run left hstage =>
    obtain ⟨-, h⟩ := ite_none_right_eq_some.1 h
    exact ⟨run, left, hstage, (some.inj h).symm⟩
  · cases h

theorem endCompletion_cases (h : s.step job .endCompletion = some t) :
    ∃ run, s.stage = .completing run 0 ∧ t = { s with stage := .saving (!s.aborted && !s.failed) } := by
  simp only [step] at h
  split at h
  next run hstage =>
    obtain ⟨-, h⟩ := ite_none_right_eq_some.1 h
    exact ⟨run, hstage, (some.inj h).symm⟩
  · cases h

theorem endSaving_cases {force : Bool} (h : s.step job (.endSaving force) = some t) :
    ∃ succeeded, s.stage = .saving succeeded ∧ t = { s with
      stage := if s.aborted ∧ force = false then .cancelling s.results 0 (job.cancelHooks s.results)
        else .finished } := by
  simp only [step] at h
  split at h
  next succeeded hstage => exact ⟨succeeded, hstage, (some.inj h).symm⟩
  · cases h

theorem cancelHook_cases (h : s.step job .cancelHook = some t) :
    ∃ results run left, s.stage = .cancelling results run (left + 1) ∧ t =
      { s with stage := .cancelling results (run + 1) left }.launch (job.stepCount + results + run) false
        [.context (.cancel results run), .dispose] := by
  simp only [step] at h
  split at h
  next results run left hstage =>
    obtain ⟨-, h⟩ := ite_none_right_eq_some.1 h
    exact ⟨results, run, left, hstage, (some.inj h).symm⟩
  · cases h

end TimelineRun

/-- The run of a job; one that only runs its hooks has no steps and begins as failed. -/
def timelineSystem (job : TimelineJob) : System TimelineRun TimelineAction where
  init := {s | ∃ forceInitialFailure : Bool, s = { nodes := job.nodes, failed := forceInitialFailure }}
  step := TimelineRun.step job

end Kici
