import Kici.Foundation.System

/-!
# The steps of a job

A job walks its steps one after another (`executeStepLoop`); the steps of a parallel group run side
by side. A step may be skipped by its rules, may need an approval, and is attempted until it does
not fail, or its retries are over (`runStepWithRetry`). An attempt (`executeStepInLoop`) is a race
of the body of the step with its timeout, with the deadline of the job, and with the signal that
aborts the step.

The signal belongs to the step, not to the attempt: a sibling that fails in a group that fails fast
aborts it, and so does a timeout, for the body to stop. What takes time, and how it ends, is an
action: bodies return, throw, never settle, or settle late; timers fire at any time; the functions
that users write say what they like.
-/

namespace Kici

inductive ExecutionStepStatus
  | running
  | success
  | failed
  | skipped
  | pending
  | cancelled
  deriving DecidableEq

structure NormalizedRetry where
  /-- The most attempts, with the first one. -/
  maxAttempts : ℕ
  deriving DecidableEq

structure Step where
  name : String
  retry : Option NormalizedRetry := none
  continueOnError : Bool := false
  hasRules : Bool := false
  /-- The step needs an approval before it runs. -/
  hasApproval : Bool := false
  deriving DecidableEq

def Step.maxAttempts (step : Step) : ℕ := (step.retry.map (·.maxAttempts)).getD 1

structure IndexedStep where
  step : Step
  stepIndex : ℕ
  deriving DecidableEq

/-- A node of the walk: a step, or a group of steps. -/
inductive StepNode
  | sequential (child : IndexedStep)
  | parallel (failFast : Bool) (maxParallel : Option ℕ) (children : List IndexedStep)

def StepNode.steps : StepNode → List IndexedStep
  | .sequential child => [child]
  | .parallel _ _ children => children

/-! ## One step -/

/-- How the body of a step settles; a check may have it skipped. -/
inductive BodyOutcome
  | success
  | skipped
  | throws

def BodyOutcome.status : BodyOutcome → ExecutionStepStatus
  | .success => .success
  | .skipped => .skipped
  | .throws => .failed

inductive RuleOutcome
  | passed
  | notPassed
  | errored
  deriving DecidableEq

/-- Where a step is. -/
inductive StepPoint
  /-- It has not begun. -/
  | waiting
  | rules
  | approval
  /-- An attempt is to start; the context of the step is there. -/
  | attempt (n : ℕ)
  | race (n : ℕ)
  /-- The attempt has timed out, and the body has a moment to stop. -/
  | grace (n : ℕ)
  /-- What comes after the step runs; a step that has failed may break the loop. -/
  | after (status : ExecutionStepStatus) (shouldBreak : Bool)
  | finished (status : ExecutionStepStatus)
  deriving DecidableEq

structure StepSlot where
  child : IndexedStep
  point : StepPoint := .waiting
  /-- Whether the signal of the step is aborted. -/
  aborted : Bool := false
  /-- How the attempts ended. -/
  attempts : List ExecutionStepStatus := []

/-- What happens to a step; at the end of a failed attempt with what `retryIf` says of its error. -/
inductive StepSlotAction
  | evaluateRules (outcome : RuleOutcome)
  | approval (approved : Bool)
  /-- An attempt starts; its body may settle at once. -/
  | start (settled : Option BodyOutcome) (retryIf : Bool)
  | settle (outcome : BodyOutcome) (retryIf : Bool)
  | timeout
  /-- The body has stopped, or its moment is over. -/
  | unwound (retryIf : Bool)
  | jobDeadline (retryIf : Bool)
  | cancel

namespace StepSlot

variable (slot : StepSlot)

/-- An attempt ends, and another one is to start if it failed and may be retried. A failed step
breaks the loop unless it may fail. -/
def endAttempt (n : ℕ) (status : ExecutionStepStatus) (retryIf : Bool) : StepSlot :=
  { slot with
    attempts := slot.attempts ++ [status]
    point :=
      if status = .failed ∧ n < slot.child.step.maxAttempts ∧ retryIf = true then .attempt (n + 1)
      else .after status (status = .failed && !slot.child.step.continueOnError) }

/-- Start an attempt. Of what is settled already the body comes first, and the signal of the step
last. -/
def start (deadline : Bool) (n : ℕ) (settled : Option BodyOutcome) (retryIf : Bool) : StepSlot :=
  match settled with
  | some outcome => slot.endAttempt n outcome.status retryIf
  | none =>
    if deadline then slot.endAttempt n .failed retryIf
    else if slot.aborted then slot.endAttempt n .cancelled retryIf
    else { slot with point := .race n }

/-- The step after what happens to it; `deadline` is whether the deadline of the job is over. -/
def next (deadline : Bool) : StepSlotAction → Option StepSlot
  | .evaluateRules outcome =>
    if slot.point = .rules ∧ (slot.child.step.hasRules = true ∨ outcome = .passed) then
      some { slot with point := match outcome with
        | .passed => .approval
        | .notPassed => .after .skipped false
        -- The step fails and breaks the loop even if it may fail.
        | .errored => .after .failed true }
    else none
  | .approval approved =>
    if slot.point = .approval ∧ (slot.child.step.hasApproval = true ∨ approved = true) then
      some { slot with point := if approved then .attempt 1 else .after .failed true }
    else none
  | .start settled retryIf =>
    match slot.point with
    | .attempt n =>
      -- A policy without attempts makes the loop throw.
      if n ≤ slot.child.step.maxAttempts then some (slot.start deadline n settled retryIf) else none
    | _ => none
  | .settle outcome retryIf =>
    match slot.point with
    | .race n => some (slot.endAttempt n outcome.status retryIf)
    | _ => none
  | .timeout =>
    match slot.point with
    | .race n => some { slot with point := .grace n, aborted := true }
    | _ => none
  | .unwound retryIf =>
    match slot.point with
    | .grace n => some (slot.endAttempt n .failed retryIf)
    | _ => none
  | .jobDeadline retryIf =>
    match slot.point with
    | .race n => if deadline then some (slot.endAttempt n .failed retryIf) else none
    | _ => none
  | .cancel =>
    match slot.point with
    | .race n => if slot.aborted then some (slot.endAttempt n .cancelled false) else none
    | _ => none

/-- The signal of the step is aborted, if it has one yet. -/
def abort : StepSlot :=
  match slot.point with
  | .attempt _ | .race _ | .grace _ | .after _ _ => { slot with aborted := true }
  | _ => slot

def isRunning : Bool :=
  match slot.point with
  | .waiting | .finished _ => false
  | _ => true

/-- How the step ended. -/
def status? : Option ExecutionStepStatus :=
  match slot.point with
  | .finished status => some status
  | _ => none

end StepSlot

/-! ## The loop -/

structure SandboxStepResult where
  child : IndexedStep
  status : ExecutionStepStatus
  /-- How the attempts of the step ended. -/
  attempts : List ExecutionStepStatus
  deriving DecidableEq

/-- A node that is run. -/
structure NodeRun where
  parallel : Bool
  failFast : Bool
  /-- The most steps that run side by side. -/
  limit : ℕ
  slots : List StepSlot
  /-- Whether a step has failed that breaks the loop. -/
  failed : Bool := false

def StepNode.run : StepNode → NodeRun
  | .sequential child => { parallel := false, failFast := false, limit := 1, slots := [{ child }] }
  | .parallel failFast maxParallel children => {
      parallel := true
      failFast
      limit := ((maxParallel.filter fun limit => 0 < limit)).getD children.length
      slots := children.map fun child => { child } }

namespace NodeRun

variable (run : NodeRun)

/-- The next step that waits begins; or is cancelled, if the group has failed and fails fast. -/
def launch (i : ℕ) : Option NodeRun :=
  match run.slots[i]? with
  | some slot =>
    if slot.point = .waiting ∧ (run.slots.take i).all (fun before => before.point ≠ .waiting) = true ∧
        (run.slots.filter (·.isRunning)).length < run.limit then
      some { run with slots := run.slots.set i { slot with
        point := if run.failFast = true ∧ run.failed = true then .finished .cancelled else .rules } }
    else none
  | none => none

/-- What a step that is over means for the others. -/
def finish (i : ℕ) : Option NodeRun :=
  match run.slots[i]? with
  | some slot =>
    match slot.point with
    | .after status shouldBreak =>
      let slots := if shouldBreak = true ∧ run.failFast = true then run.slots.map (·.abort)
        else run.slots
      some { run with
        slots := slots.set i { slot with point := .finished status }
        failed := run.failed || shouldBreak }
    | _ => none
  | none => none

/-- The results of the steps, once all are over. -/
def results? : Option (List SandboxStepResult) :=
  run.slots.mapM fun slot => slot.status?.map fun status => ⟨slot.child, status, slot.attempts⟩

end NodeRun

inductive StepLoopStatus
  | success
  | failed
  | aborted
  deriving DecidableEq

/-- How the loop ends. -/
inductive StepLoopEnd
  | returned (status : StepLoopStatus)
  | thrown
  deriving DecidableEq

structure StepLoopState where
  /-- The nodes that are still to be walked. -/
  nodes : List StepNode
  run : Option NodeRun := none
  failed : Bool
  stepResults : List SandboxStepResult := []
  isAborted : Bool := false
  jobDeadline : Bool := false
  ended : Option StepLoopEnd := none

inductive StepLoopAction
  | nextNode
  | launch (i : ℕ)
  /-- Something happens to the step at the place in its node. -/
  | step (i : ℕ) (action : StepSlotAction)
  | finish (i : ℕ)
  | endNode
  /-- The completion hooks run, and may fail the job. -/
  | runJobCompletionHooks (promoted : Bool)
  | abort
  | breachDeadline
  | throws

namespace StepLoopState

variable (s : StepLoopState)

/-- The loop goes on after a node. A step that failed fails the job even if the loop goes on; in a
group it does not. -/
def endNode (run : NodeRun) (results : List SandboxStepResult) : StepLoopState :=
  { s with
    run := none
    stepResults := s.stepResults ++ results
    failed := s.failed || run.failed || (!run.parallel && results.any (·.status = .failed))
    nodes := if run.failed then [] else s.nodes }

def step (a : StepLoopAction) : Option StepLoopState :=
  if s.ended.isSome then none
  else
    match a with
    | .nextNode =>
      match s.run, s.nodes with
      | none, node :: nodes => if s.isAborted then none else some { s with run := some node.run, nodes }
      | _, _ => none
    | .launch i => s.run.bind fun run => (run.launch i).map fun run => { s with run := some run }
    | .step i action => s.run.bind fun run => (run.slots[i]?).bind fun slot =>
        (slot.next s.jobDeadline action).map fun slot =>
          { s with run := some { run with slots := run.slots.set i slot } }
    | .finish i => s.run.bind fun run => (run.finish i).map fun run => { s with run := some run }
    | .endNode => s.run.bind fun run => run.results?.map fun results => s.endNode run results
    | .runJobCompletionHooks promoted =>
      if s.run = none ∧ (s.isAborted = true ∨ s.nodes = []) then
        some { s with ended := some (.returned (
          if s.isAborted then .aborted
          else if s.failed || promoted then .failed
          else .success)) }
      else none
    | .abort => some { s with isAborted := true }
    | .breachDeadline => some { s with jobDeadline := true }
    | .throws => some { s with ended := some .thrown }

end StepLoopState

end Kici
