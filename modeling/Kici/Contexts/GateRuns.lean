import Kici.Contexts.JobHolds

/-!
# The gates of a run

The jobs of a run pass a dispatch pass (`JobState.afterPass`), which hands a root that is not held
to the dispatcher, and stores any other job. A hold that is pending ends in one of several ways: by
decisions, which are judged by what was listed and read before (`applyDecision`), by an approval or
a reject of the security queue, by its timer, by the sweep of the queued holds, or because it
expires. Each release, and each upstream that completes, has a job dispatched (`dispatchReadyJob`):
in steps, for which the holds are looked up, the upstreams, the slots, and the stored job is
consumed and handed to the dispatcher.

`gateSystem` is all of this, in any order. When timers run out, which holds are overdue, how many
slots are occupied and what the upstreams come to is up to its actions.
-/

namespace Kici.Contexts

open Kici.Approvals

/-- How far a call of `dispatchReadyJob` is. -/
inductive ReadyPhase
  | holdCheck
  | needs
  | slot
  | consume
  | dispatching
  | ended
  deriving DecidableEq

/-- What the upstreams of a job come to. -/
inductive NeedsVerdict
  | proceed
  | stop
  | skip

structure JobState where
  /-- A dispatch pass has been over the job. -/
  passed : Bool := false
  holds : List HoldRow := []
  pendingContext : Bool := false
  calls : List ReadyPhase := []
  /-- The job has been handed to the dispatcher. -/
  handed : Bool := false
  /-- The job has a terminal status. -/
  finished : Bool := false

structure GateState where
  jobs : ℕ → JobState := fun _ => {}
  /-- The teams, as they have been, the latest first. -/
  directories : List TeamDirectory

inductive GateStep
  | pass (i occupied : ℕ) (waveHeld : Bool) (now : ℤ)
  /-- A call of `applyDecision` writes: it has listed the first `listed` decisions, and read the
  teams of an entry of the directories. -/
  | decide (i h : ℕ) (args : DecisionArgs) (listed read : ℕ)
  | setDirectory (directory : TeamDirectory)
  | approveSecurity (i h : ℕ)
  | reject (i h : ℕ) (reason : Option JsString)
  | releaseWait (i h : ℕ)
  | sweep (i h occupied : ℕ)
  | expire (i h : ℕ)
  | ready (i : ℕ)
  | callStep (i k : ℕ) (verdict : NeedsVerdict) (occupied : ℕ) (now : ℤ)
  | crash (i k : ℕ)
  | finish (i : ℕ)

/-! ## Holds -/

/-- What a decision writes, by what was listed and read before; `none` where it writes nothing. -/
def applyDecision (db : HeldRunDb) (args : DecisionArgs) (existing : List RecordedDecision)
    (lookup : TeamDirectory) : Option HeldRunDb :=
  match db.getById args.orgId, args.decision with
  | none, _ => none
  | some _, .reject => db.recordAndReject args.orgId ⟨args.actorSub, .reject, none⟩ args.reason
  | some hold, .approve =>
    match judge args (normalizeRequirement hold.approvalRequirement) existing lookup with
    | .recording judgment _ =>
      some (db.recordDecision ⟨args.actorSub, .approve, some judgment.clausesSatisfied⟩)
    | .releasing judgment =>
      db.recordAndRelease args.orgId ⟨args.actorSub, .approve, some judgment.clausesSatisfied⟩
    | .getting | .rejecting | .listing _ | .judging .. | .ended _ => none

namespace HoldRow

variable (row : HoldRow)

/-- A row that is pending gets another status. -/
def flip (status : HeldRunStatus) (reason : Option JsString := none) : Option HoldRow :=
  if row.status = .pending then
    some { row with db := { row.db with
      hold := { row.db.hold with status, reason := reason.or row.db.hold.reason } } }
  else none

/-- A security hold is approved, whoever of those who may asks for it. -/
def approveByQueueType : Option HoldRow := if row.queueType = .security then row.flip .approved else none

/-- An elapsed timer. -/
def releaseDueWait : Option HoldRow := if row.holdType = .timer then row.flip .released else none

/-- A slot is free for a queued hold. -/
def releaseQueued (limit : Option ℤ) (occupied : ℕ) : Option HoldRow :=
  if decide (row.holdType = .concurrency) && limit.any fun limit : ℤ =>
    decide ((occupied : ℤ) < limit) then
    row.flip .approved
  else none

def onDecision (directories : List TeamDirectory) (args : DecisionArgs) (listed read : ℕ) :
    Option HoldRow :=
  match directories[read]? with
  | none => none
  | some lookup =>
    (applyDecision row.db args (row.db.listDecisions.take listed) lookup).map fun db => { row with db }

end HoldRow

/-! ## Jobs -/

namespace JobState

variable (j : JobState)

/-- What a pass leaves of a job. -/
def afterPass (orgId : JsString) (data : JobEnvData) (root waveHeld : Bool) : JobState :=
  if data.rejected then { passed := true }
  else if data.held then
    { passed := true
      holds := persistJobHold orgId data
      pendingContext := decide (persistJobHold orgId data ≠ []) }
  else if root && !waveHeld then { passed := true, handed := true }
  else { passed := true, pendingContext := true }

/-- A hold changes, or nothing does. -/
def onHold (h : ℕ) (f : HoldRow → Option HoldRow) : Option JobState :=
  (j.holds[h]?.bind f).map fun row => { j with holds := j.holds.set h row }

def hasPendingHold : Bool := j.holds.any fun row => row.status = .pending

def goOn (k : ℕ) (phase : ReadyPhase) : JobState := { j with calls := j.calls.set k phase }

/-- The job waits for a slot once more. -/
def rehold (orgId : JsString) (data : CreateHeldRunData) : JobState :=
  { j with holds := j.holds ++ [createHeldRun orgId data] }

/-- The stored job is consumed, if it is there. -/
def consume (k : ℕ) : JobState :=
  { j.goOn k (if j.pendingContext then .dispatching else .ended) with pendingContext := false }

/-- The upstreams do not let the job run. -/
def skip (k : ℕ) : JobState := { j.goOn k .ended with pendingContext := false, finished := true }

def handOver (k : ℕ) : JobState := { j.goOn k .ended with handed := true }

end JobState

namespace GateState

variable (s : GateState)

def setJob (i : ℕ) (j : JobState) : GateState := { s with jobs := Function.update s.jobs i j }

/-- All upstreams have a terminal status. -/
def needsTerminal (job : GatedJob) : Bool := job.needs.all fun u => (s.jobs u).finished

variable {s}

@[simp]
theorem setJob_jobs_self (i : ℕ) (j : JobState) : (s.setJob i j).jobs i = j := Function.update_self ..

theorem setJob_jobs_of_ne {i k : ℕ} (h : k ≠ i) (j : JobState) : (s.setJob i j).jobs k = s.jobs k :=
  Function.update_of_ne h ..

end GateState

variable (isMatch : JsString → JsString → Bool) (run : GatedRun)

/-- The hold of a job for which there is no slot any more. -/
def queuedHold (job : GatedJob) (occupied : ℕ) (now : ℤ) : CreateHeldRunData where
  runId := run.runId
  jobId := job.name
  contextId := run.concurrency.contextId
  holdType := .concurrency
  queueType := .context
  security := QueueType.noConfusion
  reason := queueReason run.concurrency.limit occupied run.concurrency.strategy
  expiresAt := now + run.concurrency.holdExpirySeconds * 1000

/-- The next step of a call of `dispatchReadyJob`, which is as far as the phase. -/
def readyStep (s : GateState) (i k : ℕ) (job : GatedJob) (verdict : NeedsVerdict)
    (occupied : ℕ) (now : ℤ) : ReadyPhase → Option GateState
  | .holdCheck => some
    (s.setJob i ((s.jobs i).goOn k (if (s.jobs i).hasPendingHold then .ended else .needs)))
  | .needs =>
    match verdict with
    | .proceed => if s.needsTerminal job then some (s.setJob i ((s.jobs i).goOn k .slot)) else none
    | .stop => some (s.setJob i ((s.jobs i).goOn k .ended))
    | .skip => some (s.setJob i ((s.jobs i).skip k))
  | .slot =>
    if atLimit run.concurrency.limit occupied then
      some (s.setJob i (((s.jobs i).goOn k .ended).rehold run.orgId (queuedHold run job occupied now)))
    else some (s.setJob i ((s.jobs i).goOn k .consume))
  | .consume => some (s.setJob i ((s.jobs i).consume k))
  | .dispatching => some (s.setJob i ((s.jobs i).handOver k))
  | .ended => none

/-- What each action does. -/
def gateStep (s : GateState) : GateStep → Option GateState
  | .pass i occupied waveHeld now =>
    if (s.jobs i).passed then none
    else run.jobs[i]?.map fun job => s.setJob i
      (JobState.afterPass run.orgId (run.evaluateJob isMatch now job occupied) job.isRootJob waveHeld)
  | .decide i h args listed read =>
    ((s.jobs i).onHold h fun row => row.onDecision s.directories args listed read).map (s.setJob i)
  | .setDirectory directory => some { s with directories := directory :: s.directories }
  | .approveSecurity i h => ((s.jobs i).onHold h HoldRow.approveByQueueType).map (s.setJob i)
  | .reject i h reason => ((s.jobs i).onHold h fun row => row.flip .rejected reason).map (s.setJob i)
  | .releaseWait i h => ((s.jobs i).onHold h HoldRow.releaseDueWait).map (s.setJob i)
  | .sweep i h occupied =>
    ((s.jobs i).onHold h fun row => row.releaseQueued run.concurrency.limit occupied).map (s.setJob i)
  | .expire i h => ((s.jobs i).onHold h fun row => row.flip .expired).map (s.setJob i)
  | .ready i =>
    if (s.jobs i).passed then some
      (s.setJob i { s.jobs i with calls := (s.jobs i).calls ++ [.holdCheck] })
    else none
  | .callStep i k verdict occupied now =>
    (run.jobs[i]?).bind fun job =>
      ((s.jobs i).calls[k]?).bind (readyStep run s i k job verdict occupied now)
  | .crash i k =>
    if k < (s.jobs i).calls.length then some (s.setJob i ((s.jobs i).goOn k .ended)) else none
  | .finish i => if (s.jobs i).passed then some (s.setJob i { s.jobs i with finished := true }) else none

/-- The gates of a run. -/
def gateSystem : System GateState GateStep where
  init := {s | ∀ i, s.jobs i = {}}
  step := gateStep isMatch run

end Kici.Contexts
