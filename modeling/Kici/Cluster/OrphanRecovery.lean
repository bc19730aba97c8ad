import Kici.Foundation.System
import Kici.Foundation.Table
import Kici.Runs.RunState

/-!
# Recovery of orphaned runs

The leader scans for runs that have been running for long. A run whose coordinator is not connected,
and of which no job has made progress in the stale window, is recovered: where it has no jobs it is
failed, and else its jobs that have no recent heartbeat are failed, one after the other, each by an
update on the status that was read; each is then reported as failed. At last the run is completed,
if all its jobs are over.

A scan waits at every statement (`ScanPoint`), and in between other coordinators register jobs,
which start, send heartbeats and end; other scans may go on as well.
-/

namespace Kici.Orphans

/-- What is read and written of a row of `execution_runs`. -/
structure RunRow where
  runId : String
  routingKey : Option String
  status : ExecutionRunStatus
  startedAt : ℤ
  completedAt : Option ℤ := none
  failureReason : Option JsString := none

/-- What is read and written of a row of `execution_jobs`. -/
structure JobRow where
  runId : String
  jobId : String
  jobName : JsString
  status : ExecutionJobStatus
  lastHeartbeatAt : Option ℤ := none
  startedAt : Option ℤ := none
  completedAt : Option ℤ := none
  reroutedToPeer : Option String := none
  errorMessage : Option JsString := none
  /-- The row has its `completedAt` from a recovery. -/
  recovered : Bool := false

def JobRow.key (row : JobRow) : String × String := (row.runId, row.jobId)

/-- When the job had a heartbeat, started and was completed, as the row says. -/
def JobRow.stamps (row : JobRow) : List ℤ :=
  row.lastHeartbeatAt.toList ++ row.completedAt.toList ++ row.startedAt.toList

/-- When the job itself had a heartbeat, started and was completed: a completion that a recovery
wrote is none. -/
def JobRow.signs (row : JobRow) : List ℤ :=
  row.lastHeartbeatAt.toList ++ (if row.recovered then [] else row.completedAt.toList) ++
    row.startedAt.toList

/-- The columns that a coordinator writes of the row of a job. -/
structure JobWrite where
  status : ExecutionJobStatus
  lastHeartbeatAt : Option ℤ := none
  startedAt : Option ℤ := none
  completedAt : Option ℤ := none

/-- The write has a heartbeat, a start or a completion. -/
def JobWrite.progresses (w : JobWrite) : Bool :=
  w.lastHeartbeatAt.isSome || w.startedAt.isSome || w.completedAt.isSome

/-- A peer of a node, as its registry has it. -/
structure Peer where
  instanceId : String
  connected : Bool
  routingKeys : List String
  lastHeartbeatAt : ℤ

/-! ## Statements -/

/-- A job has a status, and a heartbeat, a start or a completion, or none of them. -/
def writeJob (runId jobId : String) (w : JobWrite) : Update JobRow.key where
  guard row := row.runId = runId ∧ row.jobId = jobId
  set row := { row with
    status := w.status
    lastHeartbeatAt := w.lastHeartbeatAt.or row.lastHeartbeatAt
    startedAt := w.startedAt.or row.startedAt
    completedAt := w.completedAt.or row.completedAt
    recovered := row.recovered && w.completedAt.isNone }

def writeRun (runId : String) (status : ExecutionRunStatus) : Update RunRow.runId where
  guard row := row.runId = runId
  set row := { row with status }

/-- The update of `recoverRun` for a run without jobs. -/
def failJoblessRun (runId : String) (now : ℤ) : Update RunRow.runId where
  guard row := row.runId = runId ∧ row.status = .running
  set row := { row with
    status := .failed
    completedAt := some now
    failureReason := some (js "No jobs found for orphaned run") }

/-- The update of `recoverRun` for a job without a heartbeat. -/
def failStuckJob (runId jobId : String) (status : ExecutionJobStatus) (now : ℤ) : Update JobRow.key where
  guard row := row.runId = runId ∧ row.jobId = jobId ∧ row.status = status
  set row := { row with
    status := .failed
    errorMessage := some (js "Orphan recovery: coordinator crashed, job stuck with no heartbeat")
    completedAt := some now
    recovered := true }

/-- The write of both paths of `completeRunIfAllJobsTerminal`. -/
def completeRun (runId : String) (status : ExecutionRunStatus) (now : ℤ) : Update RunRow.runId where
  guard row := row.runId = runId ∧ row.status ∈ [ExecutionRunStatus.pending, .running, .cancelling]
  set row := { row with status, completedAt := some now }

/-- Whether the coordinator of a run is connected: a peer with its routing key is. -/
def isCoordinatorStillConnected (peers : List Peer) : Option String → Bool
  | none => false
  | some routingKey => routingKey ≠ "" && (peers.filter (·.connected)).any (routingKey ∈ ·.routingKeys)

/-- Whether the peer that a job was rerouted to may still tell how it ended. -/
def shouldDeferReroutedJob (job : JobRow) (peers : List Peer) (nowMs flapGraceMs : ℤ) : Bool :=
  match job.reroutedToPeer with
  | none => false
  | some instanceId =>
    instanceId ≠ "" && (peers.find? (·.instanceId = instanceId)).any fun peer =>
      peer.connected || nowMs - peer.lastHeartbeatAt ≤ flapGraceMs

/-! ## Scans -/

/-- The run that is recovered, and those that come after it. -/
structure RunInHand where
  run : RunRow
  rest : List RunRow

/-- The job that a recovery has come to, and those that come after it, as they were read. -/
structure JobInHand where
  stuckThreshold : ℤ
  job : JobRow
  rest : List JobRow

/-- What a scan does next. -/
inductive ScanPoint
  | selecting (staleThreshold : ℤ)
  | nextRun (runs : List RunRow)
  | checkingProgress (cutoff : ℤ) (h : RunInHand)
  | readingJobs (h : RunInHand)
  | failingRun (h : RunInHand)
  | nextJob (h : RunInHand) (stuckThreshold : ℤ) (jobs : List JobRow)
  | readingGrace (h : RunInHand) (j : JobInHand)
  | failingJob (h : RunInHand) (j : JobInHand)
  /-- The update has moved the row, or not. -/
  | reporting (h : RunInHand) (j : JobInHand) (moved : Bool)
  | cancellingSteps (h : RunInHand) (j : JobInHand) (moved : Bool)
  /-- The calls of `completeRunIfAllJobsTerminal`. -/
  | checkingWindow (h : RunInHand)
  | memoryWrite (h : RunInHand) (status : ExecutionRunStatus)
  | fallbackJobs (h : RunInHand)
  | fallbackRun (h : RunInHand) (status : ExecutionRunStatus)
  | fallbackWrite (h : RunInHand) (status : ExecutionRunStatus)
  | ended

/-- The run that a scan has found without progress. -/
def ScanPoint.recovers : ScanPoint → Option String
  | .readingJobs h | .failingRun h | .nextJob h .. | .readingGrace h _ | .failingJob h _
  | .reporting h ..
  | .cancellingSteps h .. | .checkingWindow h | .memoryWrite h _ | .fallbackJobs h | .fallbackRun h _
  | .fallbackWrite h _ => some h.run.runId
  | .selecting _ | .nextRun _ | .checkingProgress .. | .ended => none

structure Scan where
  node : ℕ
  point : ScanPoint

/-- How a job is reported as failed. -/
inductive ReportKind
  | updateInMemoryJob
  | forwardJobTerminalStatus
  | cancelStepsForJob

/-- A report on a job, and whether the update before it has moved the row. -/
structure Report where
  kind : ReportKind
  runId : String
  jobId : String
  moved : Bool

structure OrphanState where
  runs : Table RunRow.runId
  jobs : Table JobRow.key
  now : ℤ
  peers : ℕ → List Peer
  /-- The runs in the memory of each node. -/
  memory : ℕ → String → Option RunState
  scans : List Scan := []
  reports : List Report := []

inductive OrphanAction
  | beginScan (node : ℕ) (isLeader : Bool)
  /-- With the grace that is then set, and whether a live sibling holds the registration window. -/
  | scanStep (k : ℕ) (flapGraceMs : ℤ) (windowHeld : Bool)
  | scanThrows (k : ℕ)
  | tick (now : ℤ)
  | setPeers (node : ℕ) (peers : List Peer)
  | setMemory (node : ℕ) (runId : String) (run : Option RunState)
  | insertRun (row : RunRow)
  | writeRun (runId : String) (status : ExecutionRunStatus)
  | insertJob (row : JobRow)
  | writeJob (runId jobId : String) (w : JobWrite)
  | deleteJob (runId jobId : String)

namespace OrphanState

variable (staleThresholdMs jobStuckThresholdMs : ℤ) (s : OrphanState)

def jobsOf (runId : String) : List JobRow := s.jobs.rows.filter (·.runId = runId)

/-- Whether any job of the run had a heartbeat, a start or a completion since: the latest of a
column is not too old if one of them is not. -/
def hasRecentProgress (cutoff : ℤ) (runId : String) : Bool :=
  (s.jobsOf runId).any fun job => job.stamps.any (cutoff ≤ ·)

/-- Set the status of a job in memory, if it is there. -/
def updateInMemoryJob (node : ℕ) (runId jobId : String) : OrphanState :=
  { s with memory := fun n r =>
      if n = node ∧ r = runId then
        (s.memory n r).map fun run =>
          { run with jobs := run.jobs.map fun j =>
            if j.jobId = jobId then { j with status := .failed } else j }
      else s.memory n r }

/-- A scan goes on. -/
def goOn (k : ℕ) (scan : Scan) (point : ScanPoint) : OrphanState :=
  { s with scans := s.scans.set k { scan with point } }

/-- The next step of a scan. -/
def scanStep (k : ℕ) (scan : Scan) (flapGraceMs : ℤ) (windowHeld : Bool) : Option OrphanState :=
  match scan.point with
  | .selecting staleThreshold =>
    some (s.goOn k scan (.nextRun (s.runs.rows.filter fun run =>
      run.status = .running ∧ run.startedAt < staleThreshold)))
  | .nextRun [] => some (s.goOn k scan .ended)
  | .nextRun (run :: rest) =>
    if isCoordinatorStillConnected (s.peers scan.node) run.routingKey then some
      (s.goOn k scan (.nextRun rest))
    else some (s.goOn k scan (.checkingProgress (s.now - staleThresholdMs) ⟨run, rest⟩))
  | .checkingProgress cutoff h =>
    if s.hasRecentProgress cutoff h.run.runId then some (s.goOn k scan (.nextRun h.rest))
    else some (s.goOn k scan (.readingJobs h))
  | .readingJobs h =>
    if (s.jobsOf h.run.runId).length = 0 then some (s.goOn k scan (.failingRun h))
    else some (s.goOn k scan (.nextJob h (s.now - jobStuckThresholdMs) (s.jobsOf h.run.runId)))
  | .failingRun h =>
    some ({ s with runs := s.runs.execute (failJoblessRun h.run.runId s.now) }.goOn k scan
      (.nextRun h.rest))
  | .nextJob h _ [] => some (s.goOn k scan (.checkingWindow h))
  | .nextJob h stuckThreshold (job :: rest) =>
    if job.status ∈ TERMINAL_JOB_STATES then some (s.goOn k scan (.nextJob h stuckThreshold rest))
    else some (s.goOn k scan (.readingGrace h ⟨stuckThreshold, job, rest⟩))
  | .readingGrace h j =>
    if shouldDeferReroutedJob j.job (s.peers scan.node) s.now flapGraceMs then
      some (s.goOn k scan (.nextJob h j.stuckThreshold j.rest))
    else if j.job.lastHeartbeatAt.getD 0 < j.stuckThreshold then some (s.goOn k scan (.failingJob h j))
    else some (s.goOn k scan (.nextJob h j.stuckThreshold j.rest))
  | .failingJob h j =>
    let u := failStuckJob h.run.runId j.job.jobId j.job.status s.now
    some ({ s with jobs := s.jobs.execute u }.goOn k scan (.reporting h j (s.jobs.rows.any u.guard)))
  | .reporting h j moved =>
    let reports : List Report := [⟨.updateInMemoryJob, h.run.runId, j.job.jobId, moved⟩,
      ⟨.forwardJobTerminalStatus, h.run.runId, j.job.jobId, moved⟩]
    some ({ s.updateInMemoryJob scan.node h.run.runId j.job.jobId with
      reports := s.reports ++ reports }.goOn k scan (.cancellingSteps h j moved))
  | .cancellingSteps h j moved =>
    let report : Report := ⟨.cancelStepsForJob, h.run.runId, j.job.jobId, moved⟩
    some ({ s with reports := s.reports ++ [report] }.goOn k scan (.nextJob h j.stuckThreshold j.rest))
  | .checkingWindow h =>
    if windowHeld then some (s.goOn k scan (.nextRun h.rest))
    else
      match s.memory scan.node h.run.runId with
      | some run =>
        if run.isComplete then some (s.goOn k scan (.memoryWrite h run.computeRunStatus))
        else some (s.goOn k scan (.fallbackJobs h))
      | none => some (s.goOn k scan (.fallbackJobs h))
  | .memoryWrite h status =>
    some ({ s with runs := s.runs.execute (completeRun h.run.runId status s.now) }.goOn k scan
      (.nextRun h.rest))
  | .fallbackJobs h =>
    if (s.jobsOf h.run.runId).length > 0 ∧ ∀ job ∈ s.jobsOf h.run.runId,
      job.status ∈ TERMINAL_JOB_STATES then
      some (s.goOn k scan (.fallbackRun h (rollUp ((s.jobsOf h.run.runId).map (·.status)))))
    else some (s.goOn k scan (.nextRun h.rest))
  | .fallbackRun h status =>
    if (s.runs.lookup h.run.runId).any fun run =>
        run.status ∈ [ExecutionRunStatus.pending, .running, .cancelling] then
      some (s.goOn k scan (.fallbackWrite h status))
    else some (s.goOn k scan (.nextRun h.rest))
  | .fallbackWrite h status =>
    some ({ s with runs := s.runs.execute (completeRun h.run.runId status s.now) }.goOn k scan
      (.nextRun h.rest))
  | .ended => none

def step : OrphanAction → Option OrphanState
  | .beginScan node isLeader =>
    if isLeader then some
      { s with scans := s.scans ++ [⟨node, .selecting (s.now - staleThresholdMs)⟩] } else some s
  | .scanStep k flapGraceMs windowHeld =>
    s.scans[k]?.bind fun scan =>
      s.scanStep staleThresholdMs jobStuckThresholdMs k scan flapGraceMs windowHeld
  | .scanThrows k => s.scans[k]?.map fun scan => s.goOn k scan .ended
  | .tick now => if s.now ≤ now then some { s with now } else none
  | .setPeers node peers => some { s with peers := fun n => if n = node then peers else s.peers n }
  | .setMemory node runId run =>
    some { s with memory := fun n r => if n = node ∧ r = runId then run else s.memory n r }
  | .insertRun row => some { s with runs := s.runs.insertNew row }
  | .writeRun runId status => some { s with runs := s.runs.execute (Orphans.writeRun runId status) }
  | .insertJob row => some { s with jobs := s.jobs.insertNew row }
  | .writeJob runId jobId w => some { s with jobs := s.jobs.execute (Orphans.writeJob runId jobId w) }
  | .deleteJob runId jobId => some { s with jobs := s.jobs.delete (runId, jobId) }

/-- No scan has found the run without progress and is not done with it. -/
def notRecovered (runId : String) : Bool := s.scans.all fun scan => scan.point.recovers ≠ some runId

/-- A job is failed where the row has the status that was read; and no job of a run that is
recovered has a heartbeat, a start or a completion meanwhile. -/
def careful : OrphanAction → Bool
  | .scanStep k _ _ =>
    s.scans[k]?.all fun scan =>
      match scan.point with
      | .failingJob h j => (s.jobs.lookup (h.run.runId, j.job.jobId)).any (·.status = j.job.status)
      | _ => true
  | .insertJob row => row.stamps.isEmpty || s.notRecovered row.runId
  | .writeJob runId _ w => !w.progresses || s.notRecovered runId
  | .beginScan .. | .scanThrows _ | .tick _ | .setPeers .. | .setMemory .. | .insertRun _ | .writeRun ..
  | .deleteJob .. => true

/-- The step makes the row of a job, or that of the run, failed. -/
def FailsIn (s t : OrphanState) (runId : String) : Prop :=
  (∃ jobId, (t.jobs.lookup (runId, jobId)).map (·.status) = some .failed ∧
    (s.jobs.lookup (runId, jobId)).map (·.status) ≠ some .failed) ∨
  ((t.runs.lookup runId).map (·.status) = some .failed ∧
    (s.runs.lookup runId).map (·.status) ≠ some .failed)

/-- No job of the run had a heartbeat, a start or a completion of its own in the stale window. -/
def Idle (runId : String) : Prop :=
  ∀ job ∈ s.jobs, job.runId = runId → ∀ sign ∈ job.signs, sign < s.now - staleThresholdMs

end OrphanState

/-- The leader's scans beside the other coordinators, over one database. -/
def orphanSystem (staleThresholdMs jobStuckThresholdMs : ℤ) : System OrphanState OrphanAction where
  init := {s | s.scans = [] ∧ s.reports = []}
  step := OrphanState.step staleThresholdMs jobStuckThresholdMs

end Kici.Orphans
