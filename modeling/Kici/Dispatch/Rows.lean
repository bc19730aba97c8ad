import Kici.Dispatch.Effects

/-!
# The rows of a run that is dispatched

What holds of the rows of the jobs in every run (`Sound`): a row has the name under which its id
was given away, and the end of a job that is over is in the log.
-/

namespace Kici

open List Option Update

/-! ## Rows -/

namespace RunDb

variable {db db' : RunDb} {row : ExecutionJob}

/-- The rows are rows there were, with their ids, names and statuses. -/
def JobsKept (db db' : RunDb) : Prop :=
  ∀ row ∈ db'.executionJobs, ∃ r ∈ db.executionJobs,
    r.jobId = row.jobId ∧ r.jobName = row.jobName ∧ r.status = row.status

theorem JobsKept.refl (db : RunDb) : db.JobsKept db := fun row hrow => ⟨row, hrow, rfl, rfl, rfl⟩

theorem SameJobs.jobsKept (h : db.SameJobs db') : db.JobsKept db' := by
  intro row hrow
  obtain ⟨r, hr, heq⟩ := h.exists_mem hrow
  have hsame {α : Type} := ExecutionJob.eq_of_unmarked (α := α) heq
  exact ⟨r, hr, (hsame _ fun _ => rfl).symm, (hsame _ fun _ => rfl).symm, (hsame _ fun _ => rfl).symm⟩

theorem jobsKept_update {u : Update ExecutionJob.jobId} (hname : ∀ r, (u.set r).jobName = r.jobName)
    (hstatus : ∀ r, (u.set r).status = r.status) : db.JobsKept (db.update u) := by
  intro row hrow
  obtain ⟨r, hr, rfl⟩ := mem_map.1 hrow
  refine ⟨r, hr, .symm (key_apply r), ?_⟩
  rw [apply]
  split
  · exact ⟨(hname r).symm, (hstatus r).symm⟩
  · exact ⟨rfl, rfl⟩

/-- The rows after one is inserted, if the row of its id has its name: the new one, or those there
were. -/
theorem mem_insertTracked {new : ExecutionJob} (hrow : row ∈ (db.insertTracked new).executionJobs)
    (hname : ∀ r ∈ db.executionJobs, r.jobId = new.jobId → r.jobName = new.jobName) :
    row = new ∨ ∃ r ∈ db.executionJobs, r.jobId = row.jobId ∧ r.jobName = row.jobName ∧
    r.status = row.status := by
  rw [insertTracked] at hrow
  split at hrow
  · rcases Table.mem_insertNew hrow with hold | rfl
    · exact .inr ⟨row, hold, rfl, rfl, rfl⟩
    · exact .inl rfl
  · obtain ⟨r, hr, rfl⟩ := mem_map.1 hrow
    refine .inr ⟨r, hr, .symm (key_apply r), ?_⟩
    rw [apply]
    split
    · next hg => exact ⟨hname r hr (of_decide_eq_true hg), rfl⟩
    · exact ⟨rfl, rfl⟩

end RunDb

/-! ## What is to be registered -/

/-- A task whose row is that of its job. -/
def StaticTask.Ok : StaticTask → Prop
  | .record row => row.status = .pending
  | .store pending row => row.status = .pending ∧ row.jobName = pending.jobName
  | .hand mat row => row.status = .pending ∧ row.jobName = mat.expandedName

/-- The row of a task. -/
def StaticTask.row : StaticTask → ExecutionJob
  | .record row | .store _ row | .hand _ row => row

/-- The tasks that are left. -/
def StaticPhase.todo : StaticPhase → List StaticTask
  | .tasks todo _ => todo
  | _ => []

/-- The rows that are to be registered. -/
def StaticPhase.rows : StaticPhase → List ExecutionJob
  | .tasks _ jobs => jobs
  | .record todo _ => todo
  | _ => []

def InitPoint.todo : InitPoint → List StaticTask
  | .await _ => []
  | .tasks todo _ | .register _ todo _ => todo

def InitPoint.rows : InitPoint → List ExecutionJob
  | .register row _ _ => [row]
  | _ => []

@[simp] theorem trackedRow_jobName (mat : MaterializedJob) :
    (trackedRow mat).jobName = mat.expandedName := by
  rw [trackedRow, variantTrackingFields]
  split <;> rfl

@[simp] theorem trackedRow_status (mat : MaterializedJob) : (trackedRow mat).status = .pending := by
  rw [trackedRow, variantTrackingFields]
  split <;> rfl

@[simp] theorem trackedRow_waveGated (mat : MaterializedJob) : (trackedRow mat).waveGated = false := by
  rw [trackedRow, variantTrackingFields]
  split <;> rfl

@[simp] theorem wavePolicyFields_jobName {plan : WavePlan} {name : JsString} {row : ExecutionJob} :
    (wavePolicyFields plan name row).jobName = row.jobName := by
  rw [wavePolicyFields]
  split <;> rfl

@[simp] theorem wavePolicyFields_status {plan : WavePlan} {name : JsString} {row : ExecutionJob} :
    (wavePolicyFields plan name row).status = row.status := by
  rw [wavePolicyFields]
  split <;> rfl

theorem ok_singleOrchTask {plan : WavePlan} {data : JsObject JobEnvData} {mat : MaterializedJob}
    {task : StaticTask} (h : singleOrchTask plan data mat = some task) : task.Ok := by
  rw [singleOrchTask] at h
  split at h
  · cases h
  split at h
  · cases h
  split at h
  · cases h
    exact ⟨trackedRow_status mat, trackedRow_jobName mat⟩
  split at h
  · cases h
    exact ⟨trackedRow_status mat, trackedRow_jobName mat⟩
  split at h
  · cases h
    exact ⟨trackedRow_status mat, trackedRow_jobName mat⟩
  split at h
  · cases h
    exact ⟨by simp, by simp [PendingJobContext.jobName]⟩
  · cases h
    exact ⟨by simp, by simp⟩

theorem ok_staticTasks {rt : FanoutRuntime} {data : JsObject JobEnvData} {peers : Bool}
    {run : StaticRun} : ∀ task ∈ staticTasks rt data peers run, task.Ok := by
  intro task htask
  rw [staticTasks, mem_append, mem_append] at htask
  rcases htask with (htask | htask) | htask
  · obtain ⟨mat, -, rfl⟩ := mem_map.1 htask
    exact trackedRow_status mat
  · split at htask
    · simp only [clusterTasks, mem_append] at htask
      rcases htask with ((htask | htask) | htask) | htask <;> obtain ⟨mat, -, rfl⟩ := mem_map.1 htask
      · exact ⟨trackedRow_status mat, trackedRow_jobName mat⟩
      · exact ⟨trackedRow_status mat, trackedRow_jobName mat⟩
      · exact ⟨rfl, rfl⟩
      · exact ⟨rfl, rfl⟩
    · obtain ⟨mat, -, hmat⟩ := mem_filterMap.1 htask
      exact ok_singleOrchTask hmat
  · obtain ⟨failure, -, rfl⟩ := mem_map.1 htask
    rfl

/-- The dispatch of a workflow hands over jobs of the run that need no other one. -/
theorem of_hand_mem_staticTasks {rt : FanoutRuntime} {data : JsObject JobEnvData} {peers : Bool}
    {run : StaticRun} {mat : MaterializedJob} {row : ExecutionJob}
    (h : .hand mat row ∈ staticTasks rt data peers run) :
    mat ∈ run.materializedJobs ∧ isRootJob mat.lockJob := by
  rw [staticTasks, mem_append, mem_append] at h
  rcases h with (h | h) | h
  · obtain ⟨mat', -, heq⟩ := mem_map.1 h
    cases heq
  · split at h
    · simp only [clusterTasks, mem_append] at h
      rcases h with ((h | h) | h) | h <;> obtain ⟨mat', hmem, heq⟩ := mem_map.1 h <;> cases heq
      obtain ⟨hmem, hroot⟩ := mem_filter.1 hmem
      exact ⟨(mem_filter.1 (mem_filter.1 hmem).1).1, hroot⟩
    · obtain ⟨mat', hmem, heq⟩ := mem_filterMap.1 h
      rw [singleOrchTask] at heq
      split at heq
      · cases heq
      split at heq
      · cases heq
      split at heq
      · cases heq
      split at heq
      · cases heq
      split at heq
      · cases heq
      · next hroot =>
        split at heq
        · cases heq
        · cases heq
          exact ⟨hmem, by simpa using hroot⟩
  · obtain ⟨failure, -, heq⟩ := mem_map.1 h
    cases heq

/-- A task that leads to a row that does not wait for another child. -/
def StaticTask.OkInit (task : StaticTask) : Prop := task.Ok ∧ task.row.waveGated = false

theorem okInit_record (mat : MaterializedJob) : (StaticTask.record (trackedRow mat)).OkInit :=
  ⟨trackedRow_status mat, trackedRow_waveGated mat⟩

theorem okInit_afterInitTask (mat : MaterializedJob) (verdict : GateVerdict) :
    (afterInitTask mat verdict).OkInit := by
  rw [afterInitTask]
  split
  · exact okInit_record mat
  split
  · exact ⟨⟨trackedRow_status mat, trackedRow_jobName mat⟩, trackedRow_waveGated mat⟩
  · exact ⟨⟨rfl, rfl⟩, rfl⟩

theorem okInit_initTasks {rt : FanoutRuntime} {ctx : WorkflowDispatchContext} {mat : MaterializedJob}
    {initResult : InitResult} {before verdict : GateVerdict}
    {childGates : MaterializedJob → GateVerdict} :
    ∀ task ∈ (initTasks rt ctx mat initResult before verdict childGates).1, task.OkInit := by
  rw [initTasks]
  split
  · exact fun _ h => absurd h not_mem_nil
  · exact fun _ h => absurd h not_mem_nil
  split
  · exact forall_mem_singleton.2 (okInit_record mat)
  split
  · exact forall_mem_singleton.2 (okInit_record mat)
  split
  · split
    · exact forall_mem_singleton.2 ⟨rfl, rfl⟩
    · intro task htask
      obtain ⟨child, -, rfl⟩ := mem_map.1 htask
      exact okInit_afterInitTask ..
  · exact forall_mem_singleton.2 (okInit_afterInitTask ..)

namespace DispatchState

variable {κ : Type} {s t u : DispatchState κ} {jobId : String} {jobName name : JsString}
  {row : ExecutionJob} {mat : MaterializedJob} {d : DispatchRun} {c : κ} {e : Effect}
  {answer : DispatchAnswer}

/-! ## Rows and the log -/

/-- The row is one that may be registered: its id was given to its job. -/
def Registers (s : DispatchState κ) (row : ExecutionJob) : Prop :=
  s.minted.lookup row.jobId = some row.jobName ∧ row.status = .pending

/-- Rows have the names of their ids, and jobs that are over ended. -/
structure RowsSound (s : DispatchState κ) : Prop where
  named : ∀ row ∈ s.db.executionJobs, ∀ name, s.minted.lookup row.jobId = some name → row.jobName = name
  finished : ∀ row ∈ s.db.executionJobs, row.status ∈ TERMINAL_JOB_STATES →
    ∃ jobId, .finished jobId row.jobName row.status ∈ s.log

theorem unused_iff : s.unused jobId ↔
    s.minted.lookup jobId = none ∧ s.db.executionJobs.lookup jobId = none := by
  simp [unused]

theorem lookup_append_mint {minted : List (String × JsString)} (jobName : JsString)
    (h : minted.lookup jobId = none) :
    (minted ++ [(jobId, jobName)]).lookup jobId = some jobName := by
  rw [lookup_append, h, none_or]
  simp

/-- Ids stay given away. -/
theorem Executes.minted_mono (h : s.Executes d t e) (hname : s.minted.lookup jobId = some name) :
    t.minted.lookup jobId = some name := by
  cases h with
  | mint _ _ hminted _ | hand _ _ hminted _ => rw [hminted, lookup_append, hname, some_or]
  | marks _ hminted _ | register _ hminted _ | ungate _ hminted _ | restamp _ hminted _
  | status _ _ hminted _ | delete _ hminted _ => exact hminted ▸ hname

/-- What happened stays in the log. -/
theorem Executes.log_mono (h : s.Executes d t e) : s.log <+: t.log := by
  cases h with
  | hand _ _ _ hlog | status _ _ _ hlog => exact hlog ▸ prefix_append ..
  | marks _ _ hlog | mint _ _ _ hlog | register _ _ hlog | ungate _ _ hlog | restamp _ _ hlog
  | delete _ _ hlog => exact hlog ▸ prefix_rfl

theorem Registers.mono (h : s.Registers row) (he : s.Executes d t e) : t.Registers row :=
  ⟨he.minted_mono h.1, h.2⟩

theorem RowsSound.kept (h : s.RowsSound) (hrows : s.db.JobsKept t.db) (hminted : t.minted = s.minted)
    (hlog : s.log <+: t.log) : t.RowsSound where
  named row hrow name hname := by
    obtain ⟨r, hr, hid, hnames, -⟩ := hrows row hrow
    exact hnames ▸ h.named r hr name (hid ▸ hminted ▸ hname)
  finished row hrow hterminal := by
    obtain ⟨r, hr, -, hnames, hstatus⟩ := hrows row hrow
    rw [← hnames, ← hstatus]
    exact (h.finished r hr (hstatus ▸ hterminal)).imp fun _ hmem => hlog.subset hmem

theorem RowsSound.mint (h : s.RowsSound) (hunused : s.unused jobId) (hdb : t.db = s.db)
    (hminted : t.minted = s.minted ++ [(jobId, jobName)]) (hlog : s.log <+: t.log) : t.RowsSound where
  named row hrow name hname := by
    rw [hdb] at hrow
    rw [hminted, lookup_append] at hname
    cases hold : s.minted.lookup row.jobId with
    | some name' =>
      rw [hold, some_or] at hname
      exact h.named row hrow name (hold.trans hname)
    | none =>
      rw [hold, none_or] at hname
      -- The id is the new one, which no row has.
      have hid : row.jobId = jobId := by
        by_contra hne
        simp [lookup_cons, beq_eq_false_iff_ne.2 hne] at hname
      have hnone := (unused_iff.1 hunused).2
      have hsome := Table.lookup_of_mem hrow
      rw [hid] at hsome
      exact absurd (hsome.symm.trans hnone) (some_ne_none _)
  finished row hrow hterminal := by
    rw [hdb] at hrow
    exact (h.finished row hrow hterminal).imp fun _ hmem => hlog.subset hmem

/-- The rows after a status is written: those there were, the job that gets the status, or a new
row. -/
theorem mem_db_writeStatus {db : RunDb} {status : ExecutionJobStatus}
    (hrow : row ∈ (db.writeStatus jobId jobName status).executionJobs) :
    row ∈ db.executionJobs ∨
      (∃ r ∈ db.executionJobs, r.jobId = jobId ∧ r.status ∉ TERMINAL_JOB_STATES ∧
        row = { r with status }) ∨
      db.executionJobs.lookup jobId = none ∧
        row = { jobId, jobName, status } := by
  rw [RunDb.writeStatus] at hrow
  split at hrow
  · obtain ⟨r, hr, rfl⟩ := mem_map.1 hrow
    rw [apply]
    split
    · next hg =>
      obtain ⟨hid, hlive⟩ := of_decide_eq_true hg
      exact .inr (.inl ⟨r, hr, hid, hlive, rfl⟩)
    · exact .inl hr
  · next hnone =>
    rcases Table.mem_insertNew hrow with hold | rfl
    · exact .inl hold
    · exact .inr (.inr ⟨hnone, rfl⟩)

theorem RowsSound.status {status : ExecutionJobStatus} (h : s.RowsSound)
    (hreportable : s.reportable d jobId jobName status)
    (hdb : t.db = s.db.writeStatus jobId jobName status) (hminted : t.minted = s.minted)
    (hlog : t.log = s.log ++ s.finishedBy jobId jobName status) : t.RowsSound where
  named row hrow name hname := by
    rw [hdb] at hrow
    rw [hminted] at hname
    rcases mem_db_writeStatus hrow with hr | ⟨r, hr, -, -, rfl⟩ | ⟨hnone, rfl⟩
    · exact h.named row hr name hname
    · exact h.named r hr name hname
    · rw [reportable, hnone, hname] at hreportable
      exact (of_decide_eq_true hreportable).symm
  finished row hrow hterminal := by
    rw [hdb] at hrow
    rw [hlog]
    rcases mem_db_writeStatus hrow with hr | ⟨r, hr, rfl, hlive, rfl⟩ | ⟨hnone, rfl⟩
    · exact (h.finished row hr hterminal).imp fun _ hmem => mem_append_left _ hmem
    · refine ⟨r.jobId, mem_append_right _ ?_⟩
      rw [finishedBy, if_neg (not_not.2 hterminal), Table.lookup_of_mem hr]
      simp only [if_neg hlive, mem_singleton]
    · refine ⟨jobId, mem_append_right _ ?_⟩
      rw [finishedBy, if_neg (not_not.2 hterminal), hnone]
      exact mem_singleton_self _

theorem RowsSound.register (h : s.RowsSound) (hrow : s.Registers row)
    (hdb : t.db = s.db.insertTracked row) (hminted : t.minted = s.minted) (hlog : t.log = s.log) :
    t.RowsSound where
  named row' hrow' name hname := by
    rw [hdb] at hrow'
    rw [hminted] at hname
    rcases RunDb.mem_insertTracked hrow' fun r hr hid => h.named r hr _ (hid ▸ hrow.1) with
      rfl | ⟨r, hr, hid, hnames, -⟩
    · exact some.inj (hrow.1.symm.trans hname)
    · exact hnames ▸ h.named r hr name (hid ▸ hname)
  finished row' hrow' hterminal := by
    rw [hdb] at hrow'
    rcases RunDb.mem_insertTracked hrow' fun r hr hid => h.named r hr _ (hid ▸ hrow.1) with
      rfl | ⟨r, hr, -, hnames, hstatus⟩
    · rw [hrow.2] at hterminal
      exact absurd hterminal (by decide)
    · rw [← hnames, ← hstatus, hlog]
      exact h.finished r hr (hstatus ▸ hterminal)

theorem jobsKept_deleteSynthetic : s.db.JobsKept (s.deleteSynthetic jobName).db := by
  rw [deleteSynthetic]
  split
  · exact .refl _
  · exact fun row hrow => ⟨row, (Table.mem_delete.1 hrow).1, rfl, rfl, rfl⟩

/-- Every effect keeps rows sound, if the row that it registers is one that may be. -/
theorem RowsSound.executes (h : s.RowsSound) (he : s.Executes d t e)
    (hregister : ∀ row, e = .register row → s.Registers row) : t.RowsSound := by
  cases he with
  | marks hjobs hminted hlog => exact h.kept hjobs.jobsKept hminted (hlog ▸ prefix_rfl)
  | mint hunused hdb hminted hlog => exact h.mint hunused hdb hminted (hlog ▸ prefix_rfl)
  | hand hunused hdb hminted hlog => exact h.mint hunused hdb hminted (hlog ▸ prefix_append ..)
  | register hdb hminted hlog => exact h.register (hregister _ rfl) hdb hminted hlog
  | ungate hdb hminted hlog =>
    exact h.kept (hdb ▸ RunDb.jobsKept_update (fun _ => rfl) fun _ => rfl) hminted (hlog ▸ prefix_rfl)
  | restamp hdb hminted hlog =>
    exact h.kept (hdb ▸ RunDb.jobsKept_update (fun _ => rfl) fun _ => rfl) hminted (hlog ▸ prefix_rfl)
  | status hreportable hdb hminted hlog => exact h.status hreportable hdb hminted hlog
  | delete hdb hminted hlog => exact h.kept (hdb ▸ jobsKept_deleteSynthetic) hminted (hlog ▸ prefix_rfl)

/-- The tasks of the dispatch of a workflow are those of its start. -/
theorem mem_todo_staticNext {phase : StaticPhase} {task : StaticTask}
    (h : s.staticNext d c phase answer = some t) (hmem : task ∈ t.static.todo) :
    task ∈ phase.todo ∨ phase = .start ∧ ∃ data peers, task ∈ staticTasks d.rt data peers d.run := by
  unfold staticNext at h
  split at h
  case h_1 | h_2 =>
    cases h
    exact .inr ⟨rfl, _, _, hmem⟩
  case h_3 | h_4 | h_5 | h_6 =>
    cases (ite_none_right_eq_some.1 h).2
    exact .inl (mem_cons_of_mem _ hmem)
  case h_7 =>
    cases h
    exact .inl (mem_cons_of_mem _ hmem)
  case h_16 => cases h
  all_goals
    cases h
    exact absurd hmem not_mem_nil

theorem static_ne_start {phase : StaticPhase} (h : s.staticNext d c phase answer = some t) :
    t.static ≠ .start := by
  unfold staticNext at h
  split at h
  case h_3 | h_4 | h_5 | h_6 =>
    cases (ite_none_right_eq_some.1 h).2
    exact StaticPhase.noConfusion
  case h_16 => cases h
  all_goals
    cases h
    exact StaticPhase.noConfusion

/-! ## What the parties know -/

/-- A call dispatches the job it is about, whose row gets the id it was dispatched under; what an
init job leads to may be registered. -/
def CallSound (s : DispatchState κ) : PipelineCall κ → Prop
  | .ready _ jobName _ (.dispatch pending) => pending.jobName = jobName
  | .ready _ jobName _ (.swapDelete jobId) | .ready _ jobName _ (.swapInsert jobId) =>
    s.minted.lookup jobId = some jobName ∧ ∃ mat, .dispatched jobId mat ∈ s.log ∧
      mat.expandedName = jobName
  | .init _ point => (∀ task ∈ point.todo, task.OkInit) ∧
    ∀ row ∈ point.rows, s.Registers row ∧ row.waveGated = false
  | _ => True

/-- The rows are sound, and what is to be done keeps them so. -/
structure Sound (s : DispatchState κ) : Prop extends RowsSound s where
  todo : ∀ task ∈ s.static.todo, task.Ok
  rows : ∀ row ∈ s.static.rows, s.Registers row
  calls : ∀ call ∈ s.calls, s.CallSound call

theorem sound_init : ({ needs := { db := ⟨.empty _, .empty _⟩ } } : DispatchState κ).Sound where
  named _ h := absurd h not_mem_nil
  finished _ h := absurd h not_mem_nil
  todo _ h := absurd h not_mem_nil
  rows _ h := absurd h not_mem_nil
  calls _ h := absurd h not_mem_nil

theorem CallSound.mono {call : PipelineCall κ} (h : s.CallSound call) (he : s.Executes d t e) :
    t.CallSound call := by
  unfold CallSound at *
  split at h
  case h_2 | h_3 => exact ⟨he.minted_mono h.1, h.2.imp fun _ hmat => ⟨he.log_mono.subset hmat.1, hmat.2⟩⟩
  · exact h
  · exact ⟨h.1, fun row hrow => ⟨(h.2 row hrow).1.mono he, (h.2 row hrow).2⟩⟩
  · exact h

theorem callSound_begins {call : PipelineCall κ} (h : call.Begins) : s.CallSound call := by
  unfold PipelineCall.Begins at h
  split at h
  · trivial
  · trivial
  · exact ⟨fun _ hmem => absurd hmem not_mem_nil, fun _ hmem => absurd hmem not_mem_nil⟩
  · exact h.elim

/-- A row that is registered may be. -/
theorem Sound.registers {a : DispatchAction κ} (h : s.Sound) (hissues : s.Issues a (.register row)) :
    s.Registers row := by
  cases a with
  | static answer =>
    obtain ⟨todo, jobs, hstatic⟩ := hissues
    exact h.rows row (by rw [hstatic]; exact mem_cons_self)
  | next k answer =>
    obtain ⟨call, hcall, hissues⟩ := hissues
    have hsound := h.calls call (mem_of_getElem? hcall)
    unfold PipelineCall.Issues at hissues
    split at hissues <;> simp_all [CallSound, Registers, pendingRow, InitPoint.rows]
  | _ => exact hissues.elim

theorem Sound.rowsSound_executes {a : DispatchAction κ} (h : s.Sound) (he : s.Executes d t e)
    (hissues : s.Issues a e) : t.RowsSound :=
  h.toRowsSound.executes he fun _ heq => h.registers (heq ▸ hissues)

theorem registers_mint (h : row.status = .pending) (hunused : s.unused jobId)
    (hminted : t.minted = s.minted ++ [(jobId, row.jobName)]) : t.Registers { row with jobId } :=
  ⟨hminted ▸ lookup_append_mint _ (unused_iff.1 hunused).1, h⟩

theorem registers_hand (hok : (StaticTask.hand mat row).Ok) (hfresh : s.fresh jobId)
    (hminted : t.minted = s.minted ++ [(jobId, mat.expandedName)]) : t.Registers { row with jobId } :=
  registers_mint hok.1 (unused_of_fresh hfresh) (hok.2 ▸ hminted)

/-- A guarded step on the first of what is to be done. -/
theorem guarded_head {α σ : Type*} {p : Prop} [Decidable p] {P : α → Prop} {a : α}
    {as : List α} {s t : σ}
    (hnext : (if p then some s else none) = some t) (htodo : ∀ x ∈ a :: as, P x) :
    p ∧ s = t ∧ P a ∧ ∀ x ∈ as, P x := by
  obtain ⟨hp, heq⟩ := ite_none_right_eq_some.1 hnext
  exact ⟨hp, Option.some.inj heq, forall_mem_cons.1 htodo⟩

/-- What the dispatch of a workflow is to do next. -/
theorem Sound.static_next (h : s.Sound) (hnext : s.staticNext d c s.static answer = some t) :
    (∀ task ∈ t.static.todo, task.Ok) ∧ ∀ row ∈ t.static.rows, t.Registers row := by
  have hnone : ∀ {α : Type} {P : α → Prop}, ∀ x ∈ ([] : List α), P x := nofun
  obtain ⟨e, he, -⟩ := effect_staticNext hnext
  have htodo := h.todo
  have hrows : ∀ row ∈ s.static.rows, t.Registers row := fun row hrow => (h.rows row hrow).mono he
  -- The job at the head of what is to be done gets its id.
  have hmint : ∀ {jobs : List ExecutionJob} {new : ExecutionJob}, s.static.rows = jobs →
    t.Registers new →
      ∀ row ∈ jobs ++ [new], t.Registers row := by
    rintro jobs new rfl hnew row hrow
    rcases mem_append.1 hrow with hold | hrow
    · exact hrows row hold
    · exact mem_singleton.1 hrow ▸ hnew
  generalize hphase : s.static = phase at *
  unfold staticNext at hnext
  split at hnext
  case h_1 | h_2 =>
    cases hnext
    exact ⟨ok_staticTasks, hnone⟩
  · obtain ⟨hfresh, ⟨⟩, hok, htail⟩ := guarded_head hnext htodo
    exact ⟨htail, hmint rfl (registers_mint hok (unused_of_fresh hfresh) rfl)⟩
  · obtain ⟨hunused, ⟨⟩, hok, htail⟩ := guarded_head hnext htodo
    exact ⟨htail, hmint rfl (registers_mint hok.1 (Bool.and_eq_true_iff.1 hunused).1 rfl)⟩
  · obtain ⟨hfresh, ⟨⟩, hok, htail⟩ := guarded_head hnext htodo
    exact ⟨htail, hmint rfl (registers_hand hok hfresh rfl)⟩
  · obtain ⟨hfresh, ⟨⟩, hok, htail⟩ := guarded_head hnext htodo
    exact ⟨htail, hmint rfl (registers_mint hok.1 (unused_of_fresh hfresh) rfl)⟩
  · cases hnext
    exact ⟨(forall_mem_cons.1 htodo).2, hrows⟩
  · cases hnext
    exact ⟨hnone, hnone⟩
  · cases hnext
    exact ⟨hnone, hrows⟩
  · cases hnext
    exact ⟨hnone, (forall_mem_cons.1 hrows).2⟩
  case h_16 => cases hnext
  all_goals
    cases hnext
    exact ⟨hnone, hnone⟩

theorem callSound_initNext {point next : InitPoint} (h : s.CallSound (.init c point))
    (hnext : s.initNext d c point answer = some (t, some next)) : t.CallSound (.init c next) := by
  have hnone : ∀ {α : Type} {P : α → Prop}, ∀ x ∈ ([] : List α), P x := nofun
  have hmint : ∀ {task : StaticTask} {id : String}, task.OkInit →
    t.Registers { task.row with jobId := id } →
      ∀ row ∈ [{ task.row with jobId := id }], t.Registers row ∧ row.waveGated = false :=
    fun hok hregisters => forall_mem_singleton.2 ⟨hregisters, hok.2⟩
  obtain ⟨htodo, hrows⟩ := h
  unfold initNext at hnext
  split at hnext
  · cases hnext
    exact ⟨okInit_initTasks, hnone⟩
  · cases hnext
    exact ⟨forall_mem_singleton.2 ⟨rfl, rfl⟩, hnone⟩
  · obtain ⟨hfresh, ⟨⟩, hok, htail⟩ := guarded_head hnext htodo
    exact ⟨htail, hmint hok (registers_mint hok.1 (unused_of_fresh hfresh) rfl)⟩
  · obtain ⟨hunused, ⟨⟩, hok, htail⟩ := guarded_head hnext htodo
    exact ⟨htail, hmint hok (registers_mint hok.1.1 (Bool.and_eq_true_iff.1 hunused).1 rfl)⟩
  · obtain ⟨hfresh, ⟨⟩, hok, htail⟩ := guarded_head hnext htodo
    exact ⟨htail, hmint hok (registers_hand hok.1 hfresh rfl)⟩
  · obtain ⟨hfresh, ⟨⟩, hok, htail⟩ := guarded_head hnext htodo
    exact ⟨htail, hmint hok (registers_mint hok.1.1 (unused_of_fresh hfresh) rfl)⟩
  · cases hnext
    exact ⟨(forall_mem_cons.1 htodo).2, hnone⟩
  · cases hnext
  · cases hnext
  · cases hnext
    exact ⟨htodo, hnone⟩
  · cases hnext

section
variable [DecidableEq κ]

theorem jobName_of_consume {pending : PendingJobContext} (h : s.consume c jobName = (t, some pending)) :
    pending.jobName = jobName := by
  rw [consume] at h
  split at h
  · next hlast =>
    cases h
    exact (of_decide_eq_true (mem_filter.1 (mem_of_getLast? hlast)).2).2
  · have hfind : s.contexts.find? (·.jobName = jobName) = some pending := (Prod.mk.inj h).2
    simpa using find?_some hfind

theorem callSound_readyNext {point next : ReadyPoint} {wave : Option WaveRelease}
    (h : s.CallSound (.ready c jobName wave point))
    (hnext : s.readyNext d c jobName point answer = some (t, some next)) :
    t.CallSound (.ready c jobName wave next) := by
  unfold readyNext at hnext
  split at hnext
  case h_1 | h_8 | h_11 | h_15 | h_16 => cases hnext
  case h_2 | h_3 | h_5 | h_7 | h_13 | h_14 =>
    cases hnext
    trivial
  · split at hnext
    · cases hnext
    · cases hnext
      trivial
    · obtain ⟨-, hid⟩ := Prod.mk.inj (some.inj hnext)
      obtain ⟨jobId, -, rfl⟩ := map_eq_some_iff.1 hid
      trivial
  · cases (ite_none_right_eq_some.1 hnext).2
  · split at hnext
    · cases hnext
    · next hconsume =>
      split at hnext
      · cases hnext
      · cases hnext
        exact jobName_of_consume hconsume
  · obtain ⟨hfresh, heq⟩ := ite_none_right_eq_some.1 hnext
    cases heq
    have hname := lookup_append_mint jobName (unused_iff.1 (unused_of_fresh hfresh)).1
    exact ⟨h ▸ hname, _, mem_append_right _ (mem_singleton_self _), h⟩
  · cases hnext
    obtain ⟨hminted, hlog, -, -⟩ := deleteSynthetic_control s jobName
    exact ⟨hminted ▸ h.1, hlog ▸ h.2⟩

/-- A call whose statement is executed goes on to one about which as much is known. -/
theorem callSound_callNext {call next : PipelineCall κ} (h : s.CallSound call)
    (hnext : s.callNext d call answer = some (t, some next)) : t.CallSound next := by
  cases continues_of_callNext hnext with
  | ready hready => exact callSound_readyNext h hready
  | released => trivial
  | wave hwave => rcases next_waveNext hwave with ⟨point', rfl⟩ | ⟨release, -, rfl⟩ <;> trivial
  | init hinit => exact callSound_initNext h hinit

/-- Every step keeps the rows sound. -/
theorem Sound.step {a : DispatchAction κ} (h : s.Sound) (hstep : s.step d c a = some t) : t.Sound := by
  obtain ⟨e, he, hissues⟩ := effect_step hstep
  have hstatic : (∀ task ∈ t.static.todo, task.Ok) ∧ ∀ row ∈ t.static.rows, t.Registers row := by
    rcases static_step hstep with hsame | ⟨answer, -, hnext⟩
    · rw [hsame]
      exact ⟨h.todo, fun row hrow => (h.rows row hrow).mono he⟩
    · exact h.static_next hnext
  refine ⟨h.rowsSound_executes he hissues, hstatic.1, hstatic.2, fun call hcall => ?_⟩
  rcases mem_calls_step hstep hcall with hold | hbegins |
    ⟨k, answer, call₀, u, -, hcall₀, hnext, hdb, hminted, hlog⟩
  · exact (h.calls call hold).mono he
  · exact callSound_begins hbegins
  · have hu := callSound_callNext (h.calls call₀ (mem_of_getElem? hcall₀)) hnext
    exact hu.mono (d := d) (executes_quiet hdb hminted hlog)

end

end DispatchState

end Kici
