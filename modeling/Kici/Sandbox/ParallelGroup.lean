import Kici.Sandbox.StepLoop
import Mathlib.Algebra.Order.Floor.Semifield
import Mathlib.Data.Rat.Floor

/-!
# The steps of a parallel group

The children of a group are taken in turn by workers, as many as the window has places
(`ParallelNode.start`). A worker takes the next child and waits until it is over; then it takes
another one, until there are none (`work`). The first child that fails for good trips the group: if
it fails fast, the steps in flight are aborted, and the children that are left are recorded as
cancelled.

How wide the window is comes from the author of the workflow as a number of the runtime
(`JsNumber`). The children behind the window are announced first, each found at its place; a place
that is not whole has no child, and looking at it throws (`pendingPlaces`).

Children end in any order, with any outcome (`parallelSystem`). What happens is written to a log.
-/

namespace Kici

/-- A number of the runtime. -/
inductive JsNumber
  | finite (q : ℚ)
  | infinity
  | negInfinity
  | nan

namespace JsNumber

def isTruthy : JsNumber → Bool
  | .finite q => q ≠ 0
  | .nan => false
  | _ => true

/-- `x > 0`. -/
def isPositive : JsNumber → Bool
  | .finite q => 0 < q
  | .infinity => true
  | _ => false

/-- `n <= x`. -/
def atLeast (n : ℕ) : JsNumber → Prop
  | .finite q => (n : ℚ) ≤ q
  | .infinity => True
  | _ => False

instance (n : ℕ) : DecidablePred (atLeast n)
  | .finite q => inferInstanceAs (Decidable ((n : ℚ) ≤ q))
  | .infinity => .isTrue trivial
  | .negInfinity | .nan => .isFalse id

end JsNumber

/-- A group; no two of its children have the same index among the steps of the job. -/
structure ParallelNode where
  failFast : Bool
  maxParallel : Option JsNumber
  children : List IndexedStep
  distinct : (children.map (·.stepIndex)).Nodup

/-- How an iteration of a step ends. -/
structure StepIterationOutcome where
  result : SandboxStepResult
  /-- The step has failed, and its failure is not passed over. -/
  shouldBreak : Bool
  failedStepName : Option String := none

/-- What happens in a group; children are meant by their places. -/
inductive GroupEvent
  /-- The child is announced to wait for a place in the window. -/
  | pending (i : ℕ)
  | launch (i : ℕ)
  /-- The child is over, and its result is recorded. -/
  | finish (i : ℕ) (outcome : StepIterationOutcome)
  /-- The child is recorded as cancelled, without a launch. -/
  | cancel (i : ℕ)
  /-- `abortStep` is called with the index of a step. -/
  | abort (stepIndex : ℕ)

structure GroupState where
  /-- The next child that is taken. -/
  cursor : ℕ := 0
  results : List (Option SandboxStepResult)
  /-- The indices of the steps in flight. -/
  inFlight : List ℕ := []
  failed : Bool := false
  failedStepName : Option String := none
  /-- The children whose ends workers wait for. -/
  awaiting : List ℕ := []
  log : List GroupEvent

/-- A property of `undefined` was read. -/
inductive GroupError
  | typeError

namespace ParallelNode

variable (node : ParallelNode)

/-- The width of the window. -/
def limit : JsNumber :=
  match node.maxParallel with
  | some maxParallel =>
    if maxParallel.isTruthy ∧ maxParallel.isPositive then maxParallel else .finite node.children.length
  | none => .finite node.children.length

/-- The places from the end of the window on. -/
def pendingPlaces : Except GroupError (List ℕ) :=
  match node.limit with
  | .finite q =>
    if node.children.length ≤ q then .ok []
    -- between two places `children[i]` is `undefined`, and the loop begins there
    else if q = ⌊q⌋₊ then .ok (List.range' ⌊q⌋₊ (node.children.length - ⌊q⌋₊))
    else .error .typeError
  | .negInfinity => .error .typeError
  | .infinity | .nan => .ok []

/-- The length of an array of `Math.min(limit, children.length)` workers. -/
def workers : ℕ :=
  match node.limit with
  | .finite q => min ⌊q⌋₊ node.children.length
  | .infinity => node.children.length
  | .negInfinity | .nan => 0

def emitCancelledSkip (child : IndexedStep) : SandboxStepResult := ⟨child, .cancelled, []⟩

/-- The next child, taken after the group has failed fast. -/
def cancelNext (s : GroupState) (child : IndexedStep) : GroupState :=
  { s with
    cursor := s.cursor + 1
    results := s.results.set s.cursor (some (emitCancelledSkip child))
    log := s.log ++ [.cancel s.cursor] }

/-- The next child, to wait for. -/
def launchNext (s : GroupState) (child : IndexedStep) : GroupState :=
  { s with
    cursor := s.cursor + 1
    -- the steps in flight are a set
    inFlight := if child.stepIndex ∈ s.inFlight then s.inFlight else s.inFlight ++ [child.stepIndex]
    awaiting := s.awaiting ++ [s.cursor]
    log := s.log ++ [.launch s.cursor] }

/-- What a worker does until it waits, or returns: `children` are those that are left. -/
def work (s : GroupState) : (children : List IndexedStep) → GroupState
  | [] => { s with cursor := s.cursor + 1 }
  | child :: children =>
    if node.failFast ∧ s.failed then work (cancelNext s child) children else launchNext s child

def worker (s : GroupState) : GroupState := node.work s (node.children.drop s.cursor)

/-- The child is over. -/
def settle (s : GroupState) (i : ℕ) (child : IndexedStep) (outcome : StepIterationOutcome) :
    GroupState :=
  { s with
    results := s.results.set i (some outcome.result)
    failed := s.failed || outcome.shouldBreak
    failedStepName :=
      if outcome.shouldBreak ∧ ¬ s.failed then some (outcome.failedStepName.getD child.step.name)
        else s.failedStepName
    inFlight := s.inFlight.filter (· ≠ child.stepIndex)
    awaiting := s.awaiting.erase i
    log := s.log ++ .finish i outcome ::
      (if outcome.shouldBreak ∧ node.failFast then s.inFlight.filter (· ≠ child.stepIndex)
        else []).map .abort }

/-- The group before any worker. -/
def initial (pending : List ℕ) : GroupState where
  results := List.replicate node.children.length none
  log := pending.map .pending

/-- Announce the children that are to wait, and start the workers. -/
def start : Except GroupError GroupState := do
  let pending ← node.pendingPlaces
  return node.worker^[node.workers] (node.initial pending)

/-- A child ends, and its worker goes on. -/
def step (s : GroupState) (a : ℕ × StepIterationOutcome) : Option GroupState :=
  if a.1 ∈ s.awaiting then (node.children[a.1]?).map fun child =>
    node.worker (node.settle s a.1 child a.2) else none

end ParallelNode

/-- A group whose workers have been started; its children end in any order. -/
def parallelSystem (node : ParallelNode) : System GroupState (ℕ × StepIterationOutcome) where
  init := {s | node.start = .ok s}
  step := node.step

end Kici
