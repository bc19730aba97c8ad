import Kici.Fanout.Materialize
import Kici.Foundation.System
import Kici.Foundation.Table

/-!
# The scheduling of needs

What a job of a run waits for is an edge to each of its upstream jobs, with the statuses of
the upstream job after which it may run (`JobNeed`). All decisions are taken from the rows of
the jobs and of the edges (`RunDb`):

* `insertEdgesForRun` writes the edges to the jobs known when the run starts,
  `resolveGroupEdges` those to the members of a group, once it is known who they are;
* `checkAllUpstreamsSatisfied` looks at all edges of a job;
* `evaluateDownstreams` decides, when a job is over, about the jobs that wait for it, and
  claims those it dispatches.

Any number of coordinators do so at the same time (`needsSystem`), each statement of the
database at once, and between two of them anything may happen (`SchedulerCall`).

The rows are those of one run; every statement restricts itself to the run.
-/

namespace Kici

open List Table

/-- A row of `execution_jobs`. -/
structure ExecutionJob where
  jobId : String
  jobName : JsString
  status : ExecutionJobStatus
  needsSatisfied : Bool := false
  /-- Of a child of a fan-out, the job it is a child of. -/
  baseJobName : Option JsString := none
  variantLabel : Option JsString := none
  /-- Whether the child waits for another child to end. -/
  waveGated : Bool := false
  waveMaxParallel : Option ℕ := none
  waveFailFast : Option Bool := none
  deriving DecidableEq

/-- A row of `execution_job_needs`. -/
structure JobNeed where
  jobName : JsString
  upstreamName : JsString
  /-- The elements of the array that the column holds, `none` if it holds no array. -/
  runOn : Option (List JsString)
  deriving DecidableEq

def JobNeed.key (edge : JobNeed) : JsString × JsString := (edge.jobName, edge.upstreamName)

/-- The rows of a run. -/
structure RunDb where
  executionJobs : Table ExecutionJob.jobId
  executionJobNeeds : Table JobNeed.key

/-! ## Edges -/

def SUCCESS_ONLY_RUN_ON : List ExecutionJobStatus := [.success]

/-- A set of statuses as the column holds it. -/
def runOnJson (runOn : List ExecutionJobStatus) : Option (List JsString) :=
  some (runOn.map ExecutionJobStatus.text)

/-- The set of statuses a column holds; success only, if it is malformed or empty. -/
def parseRunOn : Option (List JsString) → List JsString
  | some (status :: statuses) => status :: statuses
  | _ => SUCCESS_ONLY_RUN_ON.map ExecutionJobStatus.text

/-- Whether the job may run after the status. -/
def JobNeed.admits (edge : JobNeed) (status : ExecutionJobStatus) : Bool :=
  status.text ∈ parseRunOn edge.runOn

/-- The upstream jobs of a job by name, with the statuses after which it may run. -/
def concreteNeeds (expansionMap : JsObject (List JsString)) (lockJob : LockJob) :
    List (JsString × Option (List JsString)) :=
  lockJob.needs.flatMap fun need =>
    match need with
    | .name baseName => ((expansionMap.get baseName).getD [baseName]).map
        fun upstreamName => (upstreamName, runOnJson SUCCESS_ONLY_RUN_ON)
    | .entry baseName runOn => ((expansionMap.get baseName).getD [baseName]).map
        fun upstreamName => (upstreamName, runOnJson (runOn.getD SUCCESS_ONLY_RUN_ON))
    -- The edges to the members of a group come later.
    | .group _ _ => []

/-- The edges of jobs to the jobs they name. -/
def edgeRowsForRun (jobs : List MaterializedJob) (expansionMap : JsObject (List JsString)) :
    List JobNeed :=
  jobs.flatMap fun job => (concreteNeeds expansionMap job.lockJob).map fun need =>
    { jobName := job.expandedName, upstreamName := need.1, runOn := need.2 }

/-- The jobs that wait for nothing. -/
def rootJobNames (jobs : List MaterializedJob) (expansionMap : JsObject (List JsString)) :
    List JsString :=
  (jobs.filter fun job => (concreteNeeds expansionMap job.lockJob).isEmpty &&
    (job.lockJob.dependsOnGroups.getD []).isEmpty).map (·.expandedName)

/-- A job that waits for the members of a group. -/
structure Dependent where
  jobName : JsString
  runOn : List ExecutionJobStatus

/-- The set of statuses of the need of a group. -/
def groupRunOn (groupName : JsString) (lockJob : LockJob) : List ExecutionJobStatus :=
  (lockJob.needs.findSome? fun need =>
    match need with
    | .group group runOn => if group = groupName then some (runOn.getD SUCCESS_ONLY_RUN_ON) else none
    | _ => none).getD SUCCESS_ONLY_RUN_ON

/-- The jobs of a lock file that wait for a group. -/
def dependentStaticJobs (staticJobs : List LockJob) (groupName : JsString) : List Dependent :=
  (staticJobs.filter fun lockJob => groupName ∈ lockJob.dependsOnGroups.getD []).map fun lockJob =>
    { jobName := lockJob.name, runOn := groupRunOn groupName lockJob }

/-- The edges of the dependents of a group to its members. -/
def groupEdgeRows (memberJobNames : List JsString) (dependents : List Dependent) : List JobNeed :=
  dependents.flatMap fun dep => memberJobNames.map fun member =>
    { jobName := dep.jobName, upstreamName := member, runOn := runOnJson dep.runOn }

/-! ## Statements -/

inductive NeedsCheck
  /-- An upstream job is not over. -/
  | waiting
  | dispatch
  | skip (reason : JsString)
  deriving DecidableEq

/-- Why a job is skipped. -/
def upstreamUnmet (upstreamName : JsString) (status : ExecutionJobStatus) : JsString :=
  "upstream_unmet: " ++ upstreamName ++ " (" ++ status.text ++ ")"

namespace RunDb

variable (db : RunDb)

/-- The database after an update of the jobs. -/
def update (u : Update ExecutionJob.jobId) : RunDb :=
  { db with executionJobs := db.executionJobs.execute u }

/-- Insert edges, except those there are already. -/
def insertNeeds (edges : List JobNeed) : RunDb :=
  { db with executionJobNeeds := edges.foldl insertNew db.executionJobNeeds }

/-- The edges of a job. -/
def edgesOf (jobName : JsString) : List JobNeed :=
  db.executionJobNeeds.rows.filter fun edge => edge.jobName = jobName

/-- The edges to a job. -/
def edgesTo (upstreamName : JsString) : List JobNeed :=
  db.executionJobNeeds.rows.filter fun edge => edge.upstreamName = upstreamName

/-- The status of a job; of several of one name the last one counts. -/
def statusOf (jobName : JsString) : Option ExecutionJobStatus :=
  ((db.executionJobs.rows.filter fun row => row.jobName = jobName).getLast?).map (·.status)

/-- Decide about a job from its edges. -/
def checkEdges : List JobNeed → NeedsCheck
  | [] => .dispatch
  | edge :: edges =>
    match db.statusOf edge.upstreamName with
    | none => .waiting
    | some status =>
      if status ∉ TERMINAL_JOB_STATES then .waiting
      else if edge.admits status then checkEdges edges
      else .skip (upstreamUnmet edge.upstreamName status)

def checkAllUpstreamsSatisfied (jobName : JsString) : NeedsCheck :=
  db.checkEdges (db.edgesOf jobName)

/-- Insert the edges of jobs to the jobs they name, and mark those that wait for nothing. -/
def insertEdgesForRun (jobs : List MaterializedJob) (expansionMap : JsObject (List JsString)) :
    RunDb :=
  (db.insertNeeds (edgeRowsForRun jobs expansionMap)).update {
    guard := fun row => row.jobName ∈ rootJobNames jobs expansionMap
    set := fun row => { row with needsSatisfied := true } }

/-- Whether `claim` would change a row. -/
def claimable (jobName : JsString) : Bool :=
  db.executionJobs.rows.any fun row => row.jobName = jobName ∧ row.needsSatisfied = false

/-- Claim a job that is not claimed. -/
def claim (jobName : JsString) : RunDb :=
  db.update {
    guard := fun row => row.jobName = jobName ∧ row.needsSatisfied = false
    set := fun row => { row with needsSatisfied := true } }

/-- Give a job a status, unless it is over; a job that has no row gets one. -/
def writeStatus (jobId : String) (jobName : JsString) (status : ExecutionJobStatus) : RunDb :=
  match db.executionJobs.lookup jobId with
  | some _ => db.update {
      guard := fun row => row.jobId = jobId ∧ row.status ∉ TERMINAL_JOB_STATES
      set := fun row => { row with status } }
  | none => { db with
      executionJobs := db.executionJobs.insertNew { jobId, jobName, status } }

end RunDb

/-! ## What the statements do -/

namespace RunDb

/-- A job that the edge leads to is over, with a status after which the other may run. -/
def Met (db : RunDb) (edge : JobNeed) : Prop :=
  ∃ row ∈ db.executionJobs, row.jobName = edge.upstreamName ∧
    row.status ∈ TERMINAL_JOB_STATES ∧ edge.admits row.status = true

/-- A job that the edge leads to is over, with a status after which the other may not run. -/
def Unmet (db : RunDb) (edge : JobNeed) : Prop :=
  ∃ row ∈ db.executionJobs, row.jobName = edge.upstreamName ∧
    row.status ∈ TERMINAL_JOB_STATES ∧ edge.admits row.status = false

/-- The jobs of the name have one row. -/
def UniqueName (db : RunDb) (jobName : JsString) : Prop :=
  ∀ r ∈ db.executionJobs, ∀ r' ∈ db.executionJobs,
    r.jobName = jobName → r'.jobName = jobName → r = r'

instance (db : RunDb) (edge : JobNeed) : Decidable (db.Met edge) :=
  inferInstanceAs (Decidable (∃ row ∈ db.executionJobs.rows, row.jobName = edge.upstreamName ∧
    row.status ∈ TERMINAL_JOB_STATES ∧ edge.admits row.status = true))

instance (db : RunDb) (jobName : JsString) : Decidable (db.UniqueName jobName) :=
  inferInstanceAs (Decidable (∀ r ∈ db.executionJobs, ∀ r' ∈ db.executionJobs,
    r.jobName = jobName → r'.jobName = jobName → r = r'))

/-- Jobs that are over stay as they are. -/
def TerminalKept (db db' : RunDb) : Prop :=
  ∀ row ∈ db.executionJobs, row.status ∈ TERMINAL_JOB_STATES →
    ∃ row' ∈ db'.executionJobs, row'.jobName = row.jobName ∧ row'.status = row.status

variable {db db' : RunDb} {edge : JobNeed} {edges : List JobNeed} {jobName : JsString}

theorem mem_edgesOf : edge ∈ db.edgesOf jobName ↔ edge ∈ db.executionJobNeeds ∧
    edge.jobName = jobName := by
  simp [edgesOf, Table.mem_def]

theorem mem_edgesTo :
    edge ∈ db.edgesTo jobName ↔ edge ∈ db.executionJobNeeds ∧ edge.upstreamName = jobName := by
  simp [edgesTo, Table.mem_def]

/-- An edge that is inserted, unless there is another one between the two jobs. -/
theorem mem_insertNeeds (hedge : edge ∈ edges)
    (hkey : ∀ e, e ∈ db.executionJobNeeds ∨ e ∈ edges → e.key = edge.key → e = edge) :
    edge ∈ (db.insertNeeds edges).executionJobNeeds := by
  have hfold : ∀ (edges : List JobNeed) (needs : Table JobNeed.key),
      edge ∈ needs ∨ edge ∈ edges → (∀ e, e ∈ needs ∨ e ∈ edges → e.key = edge.key → e = edge) →
        edge ∈ edges.foldl insertNew needs := by
    intro edges
    induction edges with
    | nil => exact fun needs hedge _ => hedge.resolve_right not_mem_nil
    | cons e edges ih =>
      intro needs hedge hkey
      refine ih _ ?_ fun e' he' => hkey e' ?_
      · rcases hedge with hedge | hedge
        · exact .inl (mem_insertNew_of_mem hedge e)
        · rcases mem_cons.1 hedge with rfl | hedge
          · obtain ⟨e', he', hkey'⟩ := exists_mem_insertNew needs edge
            rcases mem_insertNew he' with hold | rfl
            · exact .inl (hkey e' (.inl hold) hkey' ▸ he')
            · exact .inl he'
          · exact .inr hedge
      · rcases he' with he' | he'
        · exact (mem_insertNew he').imp_right fun heq => mem_cons.2 (.inl heq)
        · exact .inr (mem_cons_of_mem _ he')
  exact hfold edges db.executionJobNeeds (.inr hedge) hkey

theorem mem_insertNeeds_of_mem (h : edge ∈ db.executionJobNeeds) (edges : List JobNeed) :
    edge ∈ (db.insertNeeds edges).executionJobNeeds := by
  suffices hfold : ∀ needs : Table JobNeed.key, edge ∈ needs → edge ∈ edges.foldl insertNew needs from
    hfold _ h
  induction edges with
  | nil => exact fun _ h => h
  | cons e edges ih => exact fun needs h => ih _ (mem_insertNew_of_mem h e)

/-- An edge comes from the insertion, or was there. -/
theorem mem_of_mem_insertNeeds (h : edge ∈ (db.insertNeeds edges).executionJobNeeds) :
    edge ∈ db.executionJobNeeds ∨ edge ∈ edges := by
  suffices hfold : ∀ needs : Table JobNeed.key, edge ∈ edges.foldl insertNew needs →
      edge ∈ needs ∨ edge ∈ edges from hfold _ h
  clear h
  induction edges with
  | nil => exact fun _ h => .inl h
  | cons e edges ih =>
    intro needs h
    rcases ih _ h with h | h
    · exact (mem_insertNew h).imp_right fun heq => mem_cons.2 (.inl heq)
    · exact .inr (mem_cons_of_mem _ h)

theorem exists_of_statusOf {status : ExecutionJobStatus} (h : db.statusOf jobName = some status) :
    ∃ row ∈ db.executionJobs, row.jobName = jobName ∧ row.status = status := by
  obtain ⟨row, hrow, rfl⟩ := Option.map_eq_some_iff.1 h
  obtain ⟨hmem, hname⟩ := mem_filter.1 (mem_of_getLast? hrow)
  exact ⟨row, hmem, of_decide_eq_true hname, rfl⟩

theorem met_of_checkEdges (h : db.checkEdges edges = .dispatch) : ∀ edge ∈ edges, db.Met edge := by
  induction edges with
  | nil => simp
  | cons edge edges ih =>
    rw [checkEdges] at h
    split at h
    · cases h
    · next status hstatus =>
      split at h
      · cases h
      · next hterminal =>
        split at h
        · next hadmits =>
          obtain ⟨row, hrow, hname, rfl⟩ := exists_of_statusOf hstatus
          exact forall_mem_cons.2 ⟨⟨row, hrow, hname, of_not_not hterminal, hadmits⟩, ih h⟩
        · cases h

theorem unmet_of_checkEdges {reason : JsString} (h : db.checkEdges edges = .skip reason) :
    ∃ edge ∈ edges, db.Unmet edge := by
  induction edges with
  | nil => cases h
  | cons edge edges ih =>
    rw [checkEdges] at h
    split at h
    · cases h
    · next status hstatus =>
      split at h
      · cases h
      · next hterminal =>
        split at h
        · obtain ⟨edge', hedge', hunmet⟩ := ih h
          exact ⟨edge', mem_cons_of_mem _ hedge', hunmet⟩
        · next hadmits =>
          obtain ⟨row, hrow, hname, rfl⟩ := exists_of_statusOf hstatus
          exact ⟨edge, mem_cons_self, row, hrow, hname, of_not_not hterminal,
            Bool.eq_false_iff.2 hadmits⟩

/-- A job that is the only one of its name has one status. -/
theorem Met.not_unmet (h : db.Met edge) (hname : db.UniqueName edge.upstreamName) : ¬db.Unmet edge := by
  rintro ⟨row', hrow', hname', -, hadmits'⟩
  obtain ⟨row, hrow, hname₀, -, hadmits⟩ := h
  rw [hname row hrow row' hrow' hname₀ hname', hadmits'] at hadmits
  cases hadmits

theorem Met.mono (h : db.Met edge) (hkept : db.TerminalKept db') : db'.Met edge := by
  obtain ⟨row, hrow, hname, hterminal, hadmits⟩ := h
  obtain ⟨row', hrow', hname', hstatus⟩ := hkept row hrow hterminal
  exact ⟨row', hrow', hname'.trans hname, hstatus ▸ hterminal, hstatus ▸ hadmits⟩

theorem Unmet.mono (h : db.Unmet edge) (hkept : db.TerminalKept db') : db'.Unmet edge := by
  obtain ⟨row, hrow, hname, hterminal, hadmits⟩ := h
  obtain ⟨row', hrow', hname', hstatus⟩ := hkept row hrow hterminal
  exact ⟨row', hrow', hname'.trans hname, hstatus ▸ hterminal, hstatus ▸ hadmits⟩

theorem TerminalKept.refl (db : RunDb) : db.TerminalKept db := fun row hrow _ => ⟨row, hrow, rfl, rfl⟩

/-! ### Updates -/

/-- An update that leaves names, and the statuses of jobs that are over. -/
theorem terminalKept_update {u : Update ExecutionJob.jobId} (hname : ∀ r, (u.set r).jobName = r.jobName)
    (hstatus : ∀ r, u.guard r → r.status ∈ TERMINAL_JOB_STATES → (u.set r).status = r.status) :
    db.TerminalKept (db.update u) := by
  intro row hrow hterminal
  refine ⟨u.apply row, mem_map_of_mem hrow, ?_⟩
  rw [Update.apply]
  split
  · next hg => exact ⟨hname row, hstatus row hg hterminal⟩
  · exact ⟨rfl, rfl⟩

theorem UniqueName.update {u : Update ExecutionJob.jobId} (h : db.UniqueName jobName)
    (hname : ∀ r, (u.set r).jobName = r.jobName) : (db.update u).UniqueName jobName := by
  have hkeep : ∀ r, (u.apply r).jobName = r.jobName := by
    intro r
    rw [Update.apply]
    split
    · exact hname r
    · rfl
  intro r hr r' hr' hn hn'
  obtain ⟨r, hmem, rfl⟩ := mem_map.1 hr
  obtain ⟨r', hmem', rfl⟩ := mem_map.1 hr'
  rw [hkeep] at hn hn'
  rw [h r hmem r' hmem' hn hn']

theorem claim_terminalKept : db.TerminalKept (db.claim jobName) :=
  terminalKept_update (fun _ => rfl) fun _ _ _ => rfl

theorem claimable_iff : db.claimable jobName ↔
    ∃ row ∈ db.executionJobs, row.jobName = jobName ∧ row.needsSatisfied = false := by
  simp [claimable, Table.mem_def]

/-- A claim leaves nothing to claim, and makes nothing claimable. -/
theorem claimable_claim {name : JsString} (h : (db.claim name).claimable jobName) :
    db.claimable jobName ∧ jobName ≠ name := by
  obtain ⟨row, hrow, hname, hfree⟩ := claimable_iff.1 h
  obtain ⟨row, hmem, rfl⟩ := mem_map.1 hrow
  rw [Update.apply] at hname hfree
  split at hfree
  · cases hfree
  · next hg =>
    rw [if_neg hg] at hname
    refine ⟨claimable_iff.2 ⟨row, hmem, hname, hfree⟩, fun heq => hg ?_⟩
    simp [hname, hfree, heq]

/-! ### Statuses -/

variable {jobId : String} {name : JsString} {status : ExecutionJobStatus}

/-- The rows after a status is written: the ones there were, with their names and claims, and
a new one, if the job had none. -/
theorem mem_writeStatus {row : ExecutionJob}
    (h : row ∈ (db.writeStatus jobId name status).executionJobs) :
    (∃ r ∈ db.executionJobs, row.jobName = r.jobName ∧ row.needsSatisfied = r.needsSatisfied) ∨
      db.executionJobs.lookup jobId = none ∧ row = { jobId, jobName := name, status } := by
  rw [writeStatus] at h
  split at h
  · obtain ⟨r, hr, rfl⟩ := mem_map.1 h
    refine .inl ⟨r, hr, ?_⟩
    rw [Update.apply]
    split <;> exact ⟨rfl, rfl⟩
  · next hnone =>
    rcases mem_insertNew h with hr | rfl
    · exact .inl ⟨row, hr, rfl, rfl⟩
    · exact .inr ⟨hnone, rfl⟩

theorem writeStatus_terminalKept : db.TerminalKept (db.writeStatus jobId name status) := by
  rw [writeStatus]
  split
  · refine terminalKept_update (fun _ => rfl) fun r hg hterminal => ?_
    simp only [decide_eq_true_eq] at hg
    exact absurd hterminal hg.2
  · exact fun row hrow _ => ⟨row, lookup_eq_some.1
      (lookup_insertNew (lookup_of_mem hrow) _) |>.1, rfl, rfl⟩

/-- A new row does not take a name that is taken. -/
theorem UniqueName.writeStatus (h : db.UniqueName jobName)
    (hnew : db.executionJobs.lookup jobId = none → name = jobName →
      ∀ row ∈ db.executionJobs, row.jobName ≠ jobName) :
    (db.writeStatus jobId name status).UniqueName jobName := by
  rw [RunDb.writeStatus]
  split
  · exact h.update fun _ => rfl
  · next hnone =>
    intro r hr r' hr' hn hn'
    rcases mem_insertNew hr with hr | rfl <;> rcases mem_insertNew hr' with hr' | rfl
    · exact h r hr r' hr' hn hn'
    · exact absurd hn (hnew hnone hn' r hr)
    · exact absurd hn' (hnew hnone hn r' hr')
    · rfl

theorem writeStatus_needs : (db.writeStatus jobId name status).executionJobNeeds =
    db.executionJobNeeds := by
  rw [writeStatus]
  split <;> rfl

end RunDb

/-! ## Calls -/

inductive SchedulerAction
  | dispatch
  | skip
  deriving DecidableEq

structure SchedulerResult where
  jobName : JsString
  action : SchedulerAction
  reason : Option JsString := none
  deriving DecidableEq

/-- Who asked for the check of a job, and goes on once it is done. -/
inductive Checker
  /-- A caller of `checkAllUpstreamsSatisfied`. -/
  | caller
  /-- `evaluateDownstreams`, with the edges still to be looked at, and the jobs seen. -/
  | evaluate (completedJobName : JsString) (completedStatus : ExecutionJobStatus)
      (seenJobs : List JsString) (edges : List JobNeed)
  /-- `recomputeNeedsSatisfied`, with the jobs still to be looked at. -/
  | recompute (jobNames : List JsString)

/-- A call between two of its statements. -/
inductive SchedulerCall
  /-- The check of a job starts: its edges are to be read. -/
  | edges (jobName : JsString) (checker : Checker)
  /-- The edges of the job are read, the statuses of its upstream jobs are not. -/
  | statuses (jobName : JsString) (edges : List JobNeed) (checker : Checker)
  /-- The job is to be claimed. -/
  | claim (jobName : JsString) (checker : Checker)
  /-- The next job is to be looked at. -/
  | resume (checker : Checker)

/-- What a call told, or put into its result. -/
inductive SchedulerReport
  | checked (jobName : JsString) (check : NeedsCheck)
  | evaluated (result : SchedulerResult)
  | recomputed (result : SchedulerResult)
  deriving DecidableEq

structure NeedsState where
  db : RunDb
  calls : List SchedulerCall := []
  /-- The groups that are resolved, with their members. -/
  resolved : List (JsString × List JsString) := []
  reports : List SchedulerReport := []

inductive NeedsAction
  /-- A job gets a status, or a row. -/
  | writeStatus (jobId : String) (jobName : JsString) (status : ExecutionJobStatus)
  /-- A job is over, and its downstream jobs are looked at. -/
  | evaluateDownstreams (completedJobName : JsString) (completedStatus : ExecutionJobStatus)
  | checkAllUpstreamsSatisfied (jobName : JsString)
  | recomputeNeedsSatisfied (jobNames : List JsString)
  | resolveGroupEdges (groupName : JsString) (memberJobNames : List JsString)
  /-- A call executes its next statement. -/
  | next (k : ℕ)

namespace NeedsState

variable (staticJobs : List LockJob) (s : NeedsState)

/-- The state after a report. -/
def report (r : SchedulerReport) : NeedsState := { s with reports := s.reports ++ [r] }

/-- How a call goes on once the check of a job is done. -/
def onCheck (jobName : JsString) : NeedsCheck → Checker → NeedsState × Option SchedulerCall
  | _, .caller => (s, none)
  | .waiting, checker => (s, some (.resume checker))
  | .dispatch, checker => (s, some (.claim jobName checker))
  | .skip reason, .evaluate completedJobName completedStatus seenJobs edges =>
    (s.report (.evaluated ⟨jobName, .skip, some reason⟩),
      some (.resume (.evaluate completedJobName completedStatus seenJobs edges)))
  | .skip reason, .recompute jobNames =>
    (s.report (.recomputed ⟨jobName, .skip, some reason⟩), some (.resume (.recompute jobNames)))

/-- The next statement of a call, and the call afterwards, unless it is over. -/
def nextOf : SchedulerCall → NeedsState × Option SchedulerCall
  | .edges jobName checker => (s, some (.statuses jobName (s.db.edgesOf jobName) checker))
  | .statuses jobName edges checker =>
    let check := s.db.checkEdges edges
    (s.report (.checked jobName check)).onCheck jobName check checker
  | .claim _ .caller => (s, none)
  | .claim jobName (.evaluate completedJobName completedStatus seenJobs edges) =>
    let t := { s with db := s.db.claim jobName }
    -- Without a row to claim, another call dispatches the job.
    (if s.db.claimable jobName then t.report (.evaluated ⟨jobName, .dispatch, none⟩) else t,
      some (.resume (.evaluate completedJobName completedStatus seenJobs edges)))
  | .claim jobName (.recompute jobNames) =>
    (({ s with db := s.db.claim jobName }).report (.recomputed ⟨jobName, .dispatch, none⟩),
      some (.resume (.recompute jobNames)))
  | .resume .caller => (s, none)
  | .resume (.evaluate _ _ _ []) => (s, none)
  | .resume (.evaluate completedJobName completedStatus seenJobs (edge :: edges)) =>
    if edge.jobName ∈ seenJobs then
      (s, some (.resume (.evaluate completedJobName completedStatus seenJobs edges)))
    else
      let checker := .evaluate completedJobName completedStatus (edge.jobName :: seenJobs) edges
      if edge.admits completedStatus then (s, some (.edges edge.jobName checker))
      else
        (s.report (.evaluated
          ⟨edge.jobName, .skip, some (upstreamUnmet completedJobName completedStatus)⟩),
          some (.resume checker))
  | .resume (.recompute []) => (s, none)
  | .resume (.recompute (jobName :: jobNames)) => (s, some (.edges jobName (.recompute jobNames)))

def step : NeedsAction → Option NeedsState
  | .writeStatus jobId jobName status => some { s with db := s.db.writeStatus jobId jobName status }
  | .evaluateDownstreams completedJobName completedStatus =>
    if completedStatus ∈ TERMINAL_JOB_STATES ∧ s.db.executionJobs.rows.any
        (fun row => row.jobName = completedJobName ∧ row.status = completedStatus) then
      some { s with
        calls := s.calls ++
          [.resume (.evaluate completedJobName completedStatus [] (s.db.edgesTo completedJobName))] }
    else none
  | .checkAllUpstreamsSatisfied jobName =>
    some { s with calls := s.calls ++ [.edges jobName .caller] }
  | .recomputeNeedsSatisfied jobNames =>
    some { s with calls := s.calls ++ [.resume (.recompute jobNames)] }
  | .resolveGroupEdges groupName memberJobNames =>
    let dependents := dependentStaticJobs staticJobs groupName
    some { s with
      db := s.db.insertNeeds (groupEdgeRows memberJobNames dependents)
      calls := s.calls ++ [.resume (.recompute (dependents.map (·.jobName)))]
      resolved := s.resolved ++ [(groupName, memberJobNames)] }
  | .next k =>
    match s.calls[k]? with
    | some call =>
      let (t, rest) := s.nextOf call
      some { t with calls := s.calls.take k ++ rest.toList ++ s.calls.drop (k + 1) }
    | none => none

variable {s} {t : NeedsState} {staticJobs}

@[simp] theorem onCheck_db {jobName : JsString} {check : NeedsCheck} {checker : Checker} :
    (s.onCheck jobName check checker).1.db = s.db := by
  cases check <;> cases checker <;> rfl

/-- A statement of a call only claims a job. -/
theorem db_nextOf (call : SchedulerCall) : (s.nextOf call).1.db = s.db ∨
    ∃ jobName, (s.nextOf call).1.db = s.db.claim jobName := by
  cases call with
  | edges => exact .inl rfl
  | statuses => exact .inl (by simp [nextOf, report])
  | claim jobName checker =>
    cases checker with
    | caller => exact .inl rfl
    | evaluate =>
      refine .inr ⟨jobName, ?_⟩
      simp only [nextOf]
      split <;> rfl
    | recompute => exact .inr ⟨jobName, rfl⟩
  | resume checker =>
    refine .inl ?_
    cases checker with
    | caller => rfl
    | evaluate _ _ _ edges =>
      cases edges with
      | nil => rfl
      | cons =>
        simp only [nextOf]
        split
        · rfl
        · split <;> rfl
    | recompute jobNames => cases jobNames <;> rfl

/-- Edges are never removed. -/
theorem mem_needs_step {a : NeedsAction} {edge : JobNeed} (h : s.step staticJobs a = some t)
    (hedge : edge ∈ s.db.executionJobNeeds) : edge ∈ t.db.executionJobNeeds := by
  cases a with
  | writeStatus =>
    cases h
    rwa [RunDb.writeStatus_needs]
  | evaluateDownstreams =>
    simp only [step, Option.ite_none_right_eq_some, Option.some.injEq] at h
    obtain ⟨-, rfl⟩ := h
    exact hedge
  | checkAllUpstreamsSatisfied | recomputeNeedsSatisfied =>
    cases h
    exact hedge
  | resolveGroupEdges =>
    cases h
    exact RunDb.mem_insertNeeds_of_mem hedge _
  | next k =>
    simp only [step] at h
    split at h
    · next call _ =>
      cases h
      rcases db_nextOf (s := s) call with hdb | ⟨jobName, hdb⟩ <;> exact hdb ▸ hedge
    · cases h

end NeedsState

/-- The scheduling of needs in a run of a lock file, from any rows on. -/
def needsSystem (staticJobs : List LockJob) : System NeedsState NeedsAction where
  init := {s | s.calls = [] ∧ s.resolved = [] ∧ s.reports = []}
  step := NeedsState.step staticJobs

end Kici
