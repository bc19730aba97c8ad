import Kici.Js.Json
import Kici.Sandbox.ParallelGroup

/-!
# The walk of a job's nodes

`executeStepLoop` walks the nodes of a job, steps and groups, one after another, folds how they end
into the state of the job, and then runs the completion hooks, unless the job is aborted.

What steps and hooks do is up to a world (`StepRuntime`): of the steps in flight it says which one
is over next, and what has happened to it (`StepHappening`). From this an iteration of a step makes
its outcome (`runStepIteration`), which is the same in a group and outside. A step by itself is the
only one in flight (`iterate`).
-/

namespace Kici

open List ParallelNode

/-- What happens to a step; attempts are numbered from 1. -/
structure StepHappening where
  rules : RuleOutcome := .passed
  approved : Bool := true
  /-- How an attempt ends. -/
  attempt : ℕ → ExecutionStepStatus
  /-- What `retryIf` says of the error of an attempt. -/
  retryIf : ℕ → Bool
  /-- What is done around the attempts throws. -/
  throws : Bool := false

namespace IndexedStep

variable (child : IndexedStep) (happening : StepHappening)

def evaluateStepRulesAndMaybeSkip : Option StepIterationOutcome :=
  if child.step.hasRules = false then none
  else
    match happening.rules with
    | .passed => none
    | .errored => some {
        result := ⟨child, .failed, []⟩
        shouldBreak := true
        failedStepName := some child.step.name }
    | .notPassed => some { result := ⟨child, .skipped, []⟩, shouldBreak := false }

def maybeGateStepApproval : Option StepIterationOutcome :=
  if child.step.hasApproval = false ∨ happening.approved = true then none
  else some {
    result := ⟨child, .failed, []⟩
    shouldBreak := true
    failedStepName := some child.step.name }

/-- How the attempts end, after those that were made; `left` more are allowed. -/
def retryFrom : (left : ℕ) → (attempts : List ExecutionStepStatus) → List ExecutionStepStatus
  | 0, attempts => attempts
  | left + 1, attempts =>
    let n := attempts.length + 1
    let status := happening.attempt n
    if status = .failed ∧ n < child.step.maxAttempts ∧ happening.retryIf n = true then
      retryFrom left (attempts ++ [status])
    else attempts ++ [status]

def runStepWithRetry : List ExecutionStepStatus := child.retryFrom happening child.step.maxAttempts []

/-- One iteration, unless it throws; it does without an attempt, as there is no result then. -/
def runStepIteration : Option StepIterationOutcome :=
  if happening.throws then none
  else
    match child.evaluateStepRulesAndMaybeSkip happening with
    | some outcome => some outcome
    | none =>
      match child.maybeGateStepApproval happening with
      | some outcome => some outcome
      | none =>
        let attempts := child.runStepWithRetry happening
        attempts.getLast?.map fun status =>
          if status = .failed then {
            result := ⟨child, status, attempts⟩
            shouldBreak := !child.step.continueOnError
            failedStepName := some child.step.name }
          else { result := ⟨child, status, attempts⟩, shouldBreak := false }

end IndexedStep

/-! ## The hooks -/

namespace StepWalk

inductive CompletionHook
  | onSuccess
  | onFailure
  | cleanup

def CompletionHook.hookType : CompletionHook → String
  | .onSuccess => "onSuccess"
  | .onFailure => "onFailure"
  | .cleanup => "cleanup"

/-- What a hook is told of the job. -/
structure OutcomeMetadata where
  /-- Whether the job has failed so far. -/
  failed : Bool
  reason : Option String
  failedStep : Option String
  stepOutputs : Json
  duration : ℤ

structure HookCall where
  hook : CompletionHook
  hookStepIndex : ℕ
  outcome : OutcomeMetadata

/-- Which hooks the job has. -/
structure JobHooks where
  onSuccess : Bool := false
  onFailure : Bool := false
  cleanup : Bool := false

structure CompletionState where
  failed : Bool
  failedStepName : Option String := none
  failureReason : Option String := none

/-- A text, if it is not empty: what `text && …` goes on with. -/
def truthyText (text : Option String) : Option String := text.filter (· ≠ "")

/-! ## The walk -/

inductive StepNode
  | sequential (child : IndexedStep)
  | parallel (group : ParallelNode)

def StepNode.steps : StepNode → List IndexedStep
  | .sequential child => [child]
  | .parallel group => group.children

/-- What the job meets: its steps and hooks, in a world that they change. -/
structure StepRuntime (σ : Type) where
  isAborted : σ → Bool
  /-- Of the steps in flight, the place of the one that is over next, and what has happened to it; a
  place behind the last means the first. -/
  settle : (first : IndexedStep) → (others : List IndexedStep) → σ → (ℕ × StepHappening) × σ
  abortStep : (stepIndex : ℕ) → σ → σ
  /-- The error of the hook, if it fails. -/
  executeHook : HookCall → σ → Option String × σ
  now : σ → ℕ
  stepOutputs : σ → Json

/-- How a node ends, for the loop. -/
structure NodeOutcome where
  results : List (Option SandboxStepResult)
  /-- The node fails the job, under this name. -/
  failed : Bool
  failedStepName : Option String
  /-- The loop goes no further. -/
  breaks : Bool

structure StepLoopOptions where
  nodes : List StepNode
  jobHooks : JobHooks := {}
  forceInitialFailure : Bool := false
  startTime : Option ℕ := none

/-- The number of the steps, those of groups among them. -/
def StepLoopOptions.stepsLength (opts : StepLoopOptions) : ℕ := (opts.nodes.flatMap (·.steps)).length

structure WalkState where
  state : CompletionState
  stepResults : List (Option SandboxStepResult) := []
  /-- The steps of the nodes that were begun. -/
  walked : List (List IndexedStep) := []

/-- What comes out of a node for the job. -/
def WalkState.record (s : WalkState) (node : StepNode) (outcome : NodeOutcome) : WalkState where
  state :=
    if outcome.failed then { s.state with failed := true, failedStepName := outcome.failedStepName }
      else s.state
  stepResults := s.stepResults ++ outcome.results
  walked := s.walked ++ [node.steps]

/-- The completion hooks while they run. -/
structure CompletionRun (σ : Type) where
  state : CompletionState
  calls : List HookCall := []
  world : σ

structure StepLoopReturn where
  status : StepLoopStatus
  stepResults : List (Option SandboxStepResult)
  failureReason : Option String
  walked : List (List IndexedStep)
  calls : List HookCall

namespace StepRuntime

variable {σ : Type} (rt : StepRuntime σ)

/-- An iteration of a step by itself. -/
def iterate (child : IndexedStep) (w : σ) : Option (StepIterationOutcome × σ) :=
  let ((_, happening), w) := rt.settle child [] w
  (child.runStepIteration happening).map (·, w)

/-- The children in flight end one after another, and their workers go on; at most so many of them. -/
def settleAll (node : ParallelNode) : ℕ → GroupState → σ → Option (GroupState × σ)
  | 0, s, w => some (s, w)
  | ends + 1, s, w =>
    match s.awaiting.filterMap fun i => (node.children[i]?).map (i, ·) with
    | [] => some (s, w)
    | first :: others =>
      let ((k, happening), w) := rt.settle first.2 (others.map (·.2)) w
      let (i, child) := (first :: others).getD k first
      (child.runStepIteration happening).bind fun outcome =>
        -- a child that fails the group fast aborts its siblings
        let aborted :=
          if outcome.shouldBreak ∧ node.failFast then s.inFlight.filter (· ≠ child.stepIndex) else []
        settleAll node ends (node.worker (node.settle s i child outcome))
          (aborted.foldl (fun w i => rt.abortStep i w) w)

/-- A group, each of whose children ends once. -/
def runParallelGroup (node : ParallelNode) (w : σ) : Option (GroupState × σ) :=
  match node.start with
  | .error _ => none
  | .ok s => rt.settleAll node node.children.length s w

/-- A node, unless it throws. -/
def runNode (node : StepNode) (w : σ) : Option (NodeOutcome × σ) :=
  match node with
  | .parallel group => (rt.runParallelGroup group w).map fun (s, w) => ({
      results := s.results
      failed := s.failed
      failedStepName := s.failedStepName
      breaks := s.failed }, w)
  | .sequential child => (rt.iterate child w).map fun (outcome, w) => ({
      results := [some outcome.result]
      failed := (truthyText outcome.failedStepName).isSome
      failedStepName := outcome.failedStepName
      breaks := outcome.shouldBreak }, w)

def walk : List StepNode → WalkState → σ → Option (WalkState × σ)
  | [], s, w => some (s, w)
  | node :: nodes, s, w =>
    if rt.isAborted w then some (s, w)
    else
      (rt.runNode node w).bind fun (outcome, w) =>
        if outcome.breaks then some (s.record node outcome, w) else walk nodes (s.record node outcome) w

def runCompletionHook (call : HookCall) (promoteToFailed : Bool) (run : CompletionRun σ) :
    CompletionRun σ :=
  match rt.executeHook call run.world with
  | (none, w) => { run with calls := run.calls ++ [call], world := w }
  | (some error, w) => {
      state := { run.state with
        failed := run.state.failed || promoteToFailed
        failureReason :=
          let hookType := call.hook.hookType
          let reasonFragment := s!"Hook {hookType} failed: {error}"
          match truthyText run.state.failureReason with
          | some reason => some s!"{reason}; {reasonFragment}"
          | none => some reasonFragment }
      calls := run.calls ++ [call]
      world := w }

/-- What a hook is told of the job in a state. -/
def buildOutcomeMetadata (state : CompletionState) (reason : Option String) (stepOutputs : Json)
    (duration : ℤ) : OutcomeMetadata where
  failed := state.failed
  reason
  failedStep := truthyText state.failedStepName
  stepOutputs
  duration

/-- `onSuccess` or `onFailure`, if the job has it. -/
def runOutcomeHook (opts : StepLoopOptions) (startTime : ℕ) (initial : CompletionState) (w : σ) :
    CompletionRun σ :=
  let reason := (truthyText initial.failedStepName).map fun name => s!"Step '{name}' failed"
  let jobOutcome := buildOutcomeMetadata initial reason (rt.stepOutputs w) (rt.now w - startTime)
  let run : CompletionRun σ := { state := initial, world := w }
  if initial.failed = false ∧ opts.jobHooks.onSuccess = true then
    rt.runCompletionHook ⟨.onSuccess, opts.stepsLength, jobOutcome⟩ true run
  else if initial.failed = true ∧ opts.jobHooks.onFailure = true then
    rt.runCompletionHook ⟨.onFailure, opts.stepsLength, jobOutcome⟩ false run
  else run

def runJobCompletionHooks (opts : StepLoopOptions) (startTime : ℕ) (initial : CompletionState) (w : σ) :
    CompletionRun σ :=
  let run := rt.runOutcomeHook opts startTime initial w
  if opts.jobHooks.cleanup = true then
    let cleanupOutcome := buildOutcomeMetadata run.state (truthyText run.state.failureReason)
      (rt.stepOutputs run.world) (rt.now run.world - startTime)
    rt.runCompletionHook ⟨.cleanup, opts.stepsLength + run.calls.length, cleanupOutcome⟩ true run
  else run

/-- The end of the loop after the walk. -/
def finish (opts : StepLoopOptions) (startTime : ℕ) (s : WalkState) (w : σ) : StepLoopReturn :=
  if rt.isAborted w then {
    status := .aborted
    stepResults := s.stepResults
    failureReason :=
      let name := s.state.failedStepName.getD "undefined"
      s.state.failureReason <|> if s.state.failed then some s!"Step '{name}' failed" else none
    walked := s.walked
    calls := [] }
  else
    let final := rt.runJobCompletionHooks opts startTime s.state w
    { status := if final.state.failed then .failed else .success
      stepResults := s.stepResults
      failureReason := final.state.failureReason
      walked := s.walked
      calls := final.calls }

/-- The walk and the hooks, unless a node throws. -/
def executeStepLoop (opts : StepLoopOptions) (w : σ) : Option StepLoopReturn :=
  let startTime := opts.startTime.getD (rt.now w)
  (rt.walk opts.nodes { state := { failed := opts.forceInitialFailure } } w).map fun (s, w) =>
    rt.finish opts startTime s w

/-! ## Groups come to their end -/

variable {node : ParallelNode} {s s' : GroupState} {w w' : σ} {ends : ℕ}

/-- At most so many children are still to end, and those in flight are children. -/
structure Unsettled (node : ParallelNode) (ends : ℕ) (s : GroupState) : Prop where
  length_le : s.awaiting.length + (node.children.length - s.cursor) ≤ ends
  lt_length : ∀ i ∈ s.awaiting, i < node.children.length

theorem Unsettled.work (h : Unsettled node ends s) {children : List IndexedStep}
    (hchildren : children = node.children.drop s.cursor) :
    Unsettled node ends (node.work s children) := by
  induction children generalizing s with
  | nil => exact ⟨(by have := h.length_le; simp only [work]; omega), h.lt_length⟩
  | cons child children ih =>
    have hcursor : s.cursor < node.children.length := by
      by_contra hle
      rw [drop_eq_nil_of_le (not_lt.1 hle)] at hchildren
      exact cons_ne_nil _ _ hchildren
    have hlength := h.length_le
    rw [drop_eq_getElem_cons hcursor] at hchildren
    rw [work]
    split
    · refine ih ⟨?_, h.lt_length⟩ (List.cons.inj hchildren).2
      simp only [cancelNext]
      omega
    · refine ⟨?_, fun i hi => ?_⟩
      · simp only [launchNext, length_append, length_singleton]
        omega
      · rcases mem_append.1 hi with hi | hi
        · exact h.lt_length i hi
        · exact mem_singleton.1 hi ▸ hcursor

theorem Unsettled.worker (h : Unsettled node ends s) : Unsettled node ends (node.worker s) := h.work rfl

theorem Unsettled.settle (h : Unsettled node (ends + 1) s) {i : ℕ} (hi : i ∈ s.awaiting)
    (child : IndexedStep)
    (outcome : StepIterationOutcome) : Unsettled node ends (node.settle s i child outcome) where
  length_le := by
    have hlength := h.length_le
    have hpos := length_pos_of_mem hi
    simp only [ParallelNode.settle, length_erase_of_mem hi]
    omega
  lt_length j hj := h.lt_length j (mem_of_mem_erase hj)

theorem unsettled_of_start (h : node.start = .ok s) : Unsettled node node.children.length s := by
  cases hpending : node.pendingPlaces with
  | error => simp [start, hpending, bind, Except.bind] at h
  | ok pending =>
    simp only [start, hpending, bind, Except.bind, pure, Except.pure, Except.ok.injEq] at h
    subst h
    -- every worker takes its children from those that are left
    refine Function.Iterate.rec (Unsettled node _) ?_ (fun _ => Unsettled.worker) node.workers
    exact ⟨by simp [initial], by simp [initial]⟩

/-- As many ends as there are children are enough for all of them. -/
theorem awaiting_of_settleAll (h : Unsettled node ends s)
    (hsettle : rt.settleAll node ends s w = some (s', w')) : s'.awaiting = [] := by
  induction ends generalizing s w with
  | zero =>
    obtain ⟨rfl, -⟩ := Prod.mk.inj (Option.some.inj hsettle)
    exact eq_nil_of_length_eq_zero (by have := h.length_le; omega)
  | succ ends ih =>
    rw [settleAll] at hsettle
    split at hsettle
    · rename_i hnone
      obtain ⟨rfl, -⟩ := Prod.mk.inj (Option.some.inj hsettle)
      refine eq_nil_iff_forall_not_mem.2 fun i hi => ?_
      have hplace := filterMap_eq_nil_iff.1 hnone i hi
      simp [h.lt_length i hi] at hplace
    · rename_i first others hplaces
      obtain ⟨outcome, -, hsettle⟩ := Option.bind_eq_some_iff.1 hsettle
      have hmem : ∀ k, ((first :: others).getD k first).1 ∈ s.awaiting := by
        intro k
        have hplace : (first :: others).getD k first ∈ first :: others := by
          rw [getD_eq_getElem?_getD]
          cases hk : (first :: others)[k]? with
          | none => exact mem_cons_self
          | some place => exact mem_of_getElem? hk
        rw [← hplaces] at hplace
        obtain ⟨i, hi, hchild⟩ := mem_filterMap.1 hplace
        obtain ⟨child, -, heq⟩ := Option.map_eq_some_iff.1 hchild
        rw [hplaces] at heq
        rwa [← heq]
      exact ih (h.settle (hmem _) _ _).worker hsettle

/-- No child of a group is in flight when the group is over. -/
theorem awaiting_of_runParallelGroup (h : rt.runParallelGroup node w = some (s, w')) :
    s.awaiting = [] := by
  cases hstart : node.start with
  | error => simp [runParallelGroup, hstart] at h
  | ok s₀ =>
    rw [runParallelGroup, hstart] at h
    exact rt.awaiting_of_settleAll (unsettled_of_start hstart) h

end StepRuntime

end StepWalk

end Kici
