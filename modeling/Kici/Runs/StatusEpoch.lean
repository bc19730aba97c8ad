import Kici.Foundation.Lists
import Kici.Foundation.System
import Kici.Runs.ExecutionRuns

/-!
# Generations of a run

A run that failed too early is reopened when one of its jobs reports. The row of the run then gets
the next *generation* (`status_epoch`), which goes with each status that is forwarded; so those of a
run that was reopened can be told from those it had before.

Any number of coordinators read one run back into memory, reopen it, and forward its status, while
others write its row. A call runs in one go up to its next statement, which the database executes at
some later time; what follows the statement comes later still.

* `StatusEpochState.step`: the coordinators and the row;
* `Behind`: what is kept of the generation in memory, and what calls have read of it, is not above
  the one of the row;
* `statusEpoch_ordered`: the generation of the row never falls, rises by one when a failed run is
  reopened, and none above it is forwarded.
-/

namespace Kici

open List Option ExecutionRun System

/-- A row of `execution_runs` with its generation. -/
structure RunRow extends ExecutionRun where
  statusEpoch : ℕ := 0

/-! ## Statements -/

/-- The statements that write the status of a row, but for the one that reopens a run. -/
inductive RunStatement
  | maybeTransitionRunToRunning
  | maybeTransitionRunToCancelling
  | finalizeRunCompletion (status : ExecutionRunStatus) (failureReason : Option JsString)
      (failureClass : Option RunFailureClass)
  | onBuildFailed (failureReason : JsString)
  | completeRunIfAllJobsTerminal (status : ExecutionRunStatus) (failureClass : Option RunFailureClass)
  | staleFailureReason (failureReason : JsString)
  | recordNeverStartedRun (failureReason : JsString)
  | recordRunHeld
  | claimHeldGlobalEvalRound
  | completeReleasedGlobalEvalRound (reason : Option JsString)
  | resumeHeldRun
  | cancelHeldRun (reason : JsString)
  /-- With whether the run has no jobs. -/
  | cancelJoblessRun (jobless : Bool) (reason : JsString)
  | failRun (reason : JsString)
  /-- A run without jobs is found after its coordinator is gone. -/
  | failOrphanRun
  /-- Test runs, and the runs of a workflow that is deleted, are cancelled whatever their status. -/
  | cancelRun
  | openWindow (instanceId : String)
  | clearWindow (instanceId : String)

namespace ExecutionRun

def toRunningUpdate (runId : String) : Update ExecutionRun.runId where
  guard row := row.runId = runId ∧ row.status = .pending
  set row := { row with status := .running }

def toCancellingUpdate (runId : String) : Update ExecutionRun.runId where
  guard row := row.runId = runId ∧ row.status ∈ [.running, .pending]
  set row := { row with status := .cancelling }

def failOrphanUpdate (runId : String) : Update ExecutionRun.runId where
  guard row := row.runId = runId ∧ row.status = .running
  set row := { row with status := .failed, failureReason := some "No jobs found for orphaned run" }

def cancelUpdate (runId : String) : Update ExecutionRun.runId where
  guard row := row.runId = runId
  set row := { row with status := .cancelled }

end ExecutionRun

open ExecutionRun in
def RunStatement.update (runId : String) : RunStatement → Update ExecutionRun.runId
  | .maybeTransitionRunToRunning => toRunningUpdate runId
  | .maybeTransitionRunToCancelling => toCancellingUpdate runId
  | .finalizeRunCompletion status failureReason failureClass =>
    finalizeUpdate runId status failureReason failureClass
  | .onBuildFailed failureReason => buildFailedUpdate runId failureReason
  | .completeRunIfAllJobsTerminal status failureClass => staleUpdate runId status failureClass
  | .staleFailureReason failureReason => staleReasonUpdate runId failureReason
  | .recordNeverStartedRun failureReason => neverStartedUpdate runId failureReason
  | .recordRunHeld => heldUpdate runId
  | .claimHeldGlobalEvalRound => claimRoundUpdate runId
  | .completeReleasedGlobalEvalRound reason => settleRoundUpdate runId reason
  | .resumeHeldRun => resumeUpdate runId
  | .cancelHeldRun reason => cancelHeldUpdate runId reason
  | .cancelJoblessRun jobless reason => cancelJoblessUpdate (fun _ => jobless) runId reason
  | .failRun reason => failRunUpdate runId reason
  | .failOrphanRun => failOrphanUpdate runId
  | .cancelRun => cancelUpdate runId
  | .openWindow instanceId => openWindowUpdate runId instanceId
  | .clearWindow instanceId => clearWindowUpdate runId instanceId

/-- What lowercases texts: the language, and the database. -/
structure LowerTexts where
  toLowerCase : JsString → JsString
  lower : JsString → JsString

namespace LowerTexts

variable (texts : LowerTexts)

/-- Whether a run that has the status may be reopened: it failed, but not as its build did. -/
def isReopenableFailure (status : ExecutionRunStatus) (failureReason : Option JsString) : Bool :=
  status = .failed ∧ ∀ reason ∈ failureReason, JsString.includes (texts.toLowerCase reason)
    "build" = false

end LowerTexts

namespace RunRow

variable (row : RunRow)

/-- A statement that does not write the generation. -/
def write (u : Update runId) : RunRow := { row with toExecutionRun := u.apply row.toExecutionRun }

/-- The condition on which a run is reopened whose generation is believed to be `epoch`. -/
def reopens (texts : LowerTexts) (epoch : ℕ) : Bool :=
  row.status = .failed ∧ row.statusEpoch = epoch ∧
    ∀ reason ∈ row.failureReason, JsString.includes (texts.lower reason) "build" = false

/-- The row of a run that is reopened. -/
def reopen (nextEpoch : ℕ) : RunRow :=
  { row with
    status := .running
    failureReason := none
    failureClass := none
    statusEpoch := nextEpoch }

end RunRow

/-! ## Coordinators -/

/-- What a coordinator keeps of the generation of a run in memory. -/
structure RunGeneration (κ : Type) where
  coordinator : κ
  /-- Absent where it is 0. -/
  statusEpoch : Option ℕ := none
  /-- The run was read back from a row that may be reopened. -/
  reopenableFailedRow : Bool := false

/-- A call that waits for its statement, or has what the statement returned. -/
inductive EpochCall (κ : Type)
  | recoverRunFromDb (c : κ)
  | recovered (c : κ) (row : RunRow)
  /-- The run at the place in memory is to be reopened. -/
  | reopen (run epoch : ℕ)
  | reopened (run epoch : ℕ) (raised : Bool)
  | adoptStoredStatusEpoch (run : ℕ)
  | adopted (run : ℕ) (stored : Option ℕ)
  /-- The row was read, or a write returned it, and its status is to be forwarded. -/
  | forward (c : κ) (row : RunRow)

/-- A generation that a coordinator forwarded, and the one of the row at that time. -/
structure ForwardedEpoch (κ : Type) where
  coordinator : κ
  statusEpoch : ℕ
  stored : ℕ
  deriving DecidableEq

structure StatusEpochState (κ : Type) where
  row : Option RunRow := none
  /-- What is, or was, in the memories. -/
  objects : List (RunGeneration κ) := []
  /-- The place of the run among them, as a coordinator has it. -/
  runs : κ → Option ℕ := fun _ => none
  calls : List (EpochCall κ) := []
  forwarded : List (ForwardedEpoch κ) := []

inductive StatusEpochAction (κ : Type)
  /-- The row is inserted, unless there is one. -/
  | insert (row : ExecutionRun)
  | write (statement : RunStatement)
  | onExecutionStarted (c : κ)
  | recoverRunFromDb (c : κ)
  /-- A job of the run at the place in memory has reported. -/
  | reopenRecoveredRun (run : ℕ)
  /-- The row is read, to forward its status. -/
  | readRow (c : κ)
  /-- The status of the run at the place in memory is forwarded. -/
  | forwardRun (run : ℕ)
  /-- The run leaves the memory. -/
  | prune (c : κ)
  /-- The statement of a call runs, or the call goes on. -/
  | next (k : ℕ)
  /-- A statement fails. -/
  | throws (k : ℕ)

namespace StatusEpochState

variable {κ : Type} (s : StatusEpochState κ)

/-- The generation of the row. -/
def statusEpoch : ℕ := (s.row.map (·.statusEpoch)).getD 0

def addCall (call : EpochCall κ) : StatusEpochState κ := { s with calls := s.calls ++ [call] }

def forward (c : κ) (epoch : ℕ) : StatusEpochState κ :=
  { s with forwarded := s.forwarded ++ [⟨c, epoch, s.statusEpoch⟩] }

def setEpoch (run epoch : ℕ) : StatusEpochState κ :=
  { s with objects := s.objects.modify run fun r => { r with statusEpoch := some epoch } }

variable [DecidableEq κ]

def setRun (c : κ) (run : Option ℕ) : StatusEpochState κ :=
  { s with runs := fun c' => if c' = c then run else s.runs c' }

/-- Put the run into the memory of a coordinator. -/
def addRun (run : RunGeneration κ) : StatusEpochState κ :=
  setRun { s with objects := s.objects ++ [run] } run.coordinator (some s.objects.length)

variable (texts : LowerTexts)

/-- The run that is read back from the row. -/
def recoveredRun (c : κ) (row : RunRow) : RunGeneration κ where
  coordinator := c
  statusEpoch := if row.statusEpoch = 0 then none else some row.statusEpoch
  reopenableFailedRow := texts.isReopenableFailure row.status row.failureReason

/-- The state after the statement of a call, or after the call goes on, and the call then. -/
def callNext : EpochCall κ → StatusEpochState κ × Option (EpochCall κ)
  -- A run that is held is not read back.
  | .recoverRunFromDb c => (s, (s.row.filter fun row => row.status ≠ .held).map (.recovered c))
  | .recovered c row => (s.addRun (recoveredRun texts c row), none)
  | .reopen run epoch =>
    match s.row.filter fun row => row.reopens texts epoch with
    | some row => ({ s with row := some (row.reopen (epoch + 1)) }, some (.reopened run epoch true))
    | none => (s, some (.reopened run epoch false))
  | .reopened run epoch raised =>
    if raised then (s.setEpoch run (epoch + 1), none) else (s, some (.adoptStoredStatusEpoch run))
  | .adoptStoredStatusEpoch run => (s, some (.adopted run (s.row.map (·.statusEpoch))))
  | .adopted run stored =>
    match stored with
    | some epoch => (s.setEpoch run epoch, none)
    | none => (s, none)
  | .forward c row => (s.forward c row.statusEpoch, none)

/-- Reopen a run that was read back from a failed row; this is decided once. -/
def reopenRecoveredRun (run : ℕ) (r : RunGeneration κ) : StatusEpochState κ :=
  if r.reopenableFailedRow then
    { s with objects := s.objects.modify run fun r => { r with reopenableFailedRow := false } }.addCall
      (.reopen run (r.statusEpoch.getD 0))
  else s

def step (runId : String) : StatusEpochAction κ → Option (StatusEpochState κ)
  | .insert row =>
    if row.runId = runId then some { s with row := s.row.or (some { toExecutionRun := row }) } else none
  | .write statement => some { s with row := s.row.map (·.write (statement.update runId)) }
  | .onExecutionStarted c => some (s.addRun { coordinator := c })
  | .recoverRunFromDb c => if (s.runs c).isNone then some (s.addCall (.recoverRunFromDb c)) else none
  | .reopenRecoveredRun run => s.objects[run]?.map (s.reopenRecoveredRun run)
  | .readRow c => s.row.map fun row => s.addCall (.forward c row)
  | .forwardRun run => s.objects[run]?.map fun r => s.forward r.coordinator (r.statusEpoch.getD 0)
  | .prune c => some (s.setRun c none)
  | .next k => s.calls[k]?.map fun call =>
    let (t, next) := s.callNext texts call
    { t with calls := t.calls.take k ++ next.toList ++ t.calls.drop (k + 1) }
  | .throws k => s.calls[k]?.map fun _ =>
    { s with calls := s.calls.take k ++ [] ++ s.calls.drop (k + 1) }

end StatusEpochState

/-- The coordinators of one run, from its beginning on. -/
def statusEpochSystem {κ : Type} [DecidableEq κ] (texts : LowerTexts) (runId : String) :
    System (StatusEpochState κ) (StatusEpochAction κ) where
  init := {{}}
  step s := s.step texts runId

/-! ## The row -/

namespace ExecutionRun

variable {row : ExecutionRun} {runId : String}

/-- A run that failed stays so, if the statement leaves the runs alone that are over. -/
theorem status_apply_of_keepsFinished {u : Update ExecutionRun.runId} (h : u.KeepsFinished)
    (hrow : row.status = .failed) : (u.apply row).status = .failed := by
  rw [Update.apply]
  split
  · next hg => rw [h row hg (hrow ▸ by decide), hrow]
  · exact hrow

theorem toRunningUpdate_keepsFinished : (toRunningUpdate runId).KeepsFinished :=
  keepsFinished_of_status .pending (fun row hg => by simp_all [toRunningUpdate]) (by decide)

theorem failOrphanUpdate_keepsFinished : (failOrphanUpdate runId).KeepsFinished :=
  keepsFinished_of_status .running (fun row hg => by simp_all [failOrphanUpdate]) (by decide)

theorem toCancellingUpdate_keepsFinished : (toCancellingUpdate runId).KeepsFinished := by
  refine keepsFinished_of_guard fun row hg => ?_
  obtain ⟨-, hstatus⟩ := of_decide_eq_true hg
  revert hstatus
  cases row.status <;> decide

end ExecutionRun

open ExecutionRun in
/-- No statement makes a run that failed run. -/
theorem RunStatement.status_apply_ne_running {row : ExecutionRun} (runId : String)
    (statement : RunStatement)
    (hrow : row.status = .failed) : ((statement.update runId).apply row).status ≠ .running := by
  have hkeeps {u : Update ExecutionRun.runId} (h : u.KeepsFinished) :
    (u.apply row).status ≠ .running := by
    rw [status_apply_of_keepsFinished h hrow]
    decide
  have hsets {u : Update ExecutionRun.runId} (h : ∀ row, (u.set row).status ≠ .running) :
      (u.apply row).status ≠ .running := by
    rw [Update.apply]
    split
    · exact h row
    · rw [hrow]
      decide
  cases statement with
  | maybeTransitionRunToRunning => exact hkeeps toRunningUpdate_keepsFinished
  | maybeTransitionRunToCancelling => exact hkeeps toCancellingUpdate_keepsFinished
  | finalizeRunCompletion => exact hkeeps finalizeUpdate_keepsFinished
  | onBuildFailed => exact hkeeps buildFailedUpdate_keepsFinished
  | completeRunIfAllJobsTerminal => exact hkeeps staleUpdate_keepsFinished
  | recordNeverStartedRun => exact hkeeps neverStartedUpdate_keepsFinished
  | recordRunHeld => exact hkeeps heldUpdate_keepsFinished
  | claimHeldGlobalEvalRound => exact hkeeps claimRoundUpdate_keepsFinished
  | completeReleasedGlobalEvalRound => exact hkeeps settleRoundUpdate_keepsFinished
  | resumeHeldRun => exact hkeeps resumeUpdate_keepsFinished
  | cancelHeldRun => exact hkeeps cancelHeldUpdate_keepsFinished
  | cancelJoblessRun jobless reason =>
    have hjobless : (cancelJoblessUpdate (fun _ => jobless) runId reason).KeepsFinished :=
      cancelJoblessUpdate_keepsFinished
    exact hkeeps hjobless
  | failOrphanRun => exact hkeeps failOrphanUpdate_keepsFinished
  | staleFailureReason | openWindow | clearWindow => exact hkeeps (keepsFinished_of_set fun _ => rfl)
  | failRun | cancelRun => exact hsets fun _ => ExecutionRunStatus.noConfusion

open StatusEpochState

namespace StatusEpochState

variable {κ : Type} [DecidableEq κ] {texts : LowerTexts} {runId : String} {s t : StatusEpochState κ}
  {a : StatusEpochAction κ} {call : EpochCall κ} {m n : ℕ}

/-- What a step does to the row: nothing, an insertion, another write, or a reopening. -/
inductive RowStep (texts : LowerTexts) (runId : String) : Option RunRow → Option RunRow → Prop
  | keep {row : Option RunRow} : RowStep texts runId row row
  | insert (row : ExecutionRun) : RowStep texts runId none (some { toExecutionRun := row })
  | write {row : RunRow} (statement : RunStatement) :
    RowStep texts runId (some row) (some (row.write (statement.update runId)))
  | reopen {row : RunRow} {epoch : ℕ} (h : row.reopens texts epoch = true) :
    RowStep texts runId (some row) (some (row.reopen (epoch + 1)))

theorem row_callNext : RowStep texts runId s.row (s.callNext texts call).1.row := by
  cases call with
  | reopen run epoch =>
    rw [callNext]
    split
    · next row hrow =>
      obtain ⟨hsome, hreopens⟩ := filter_eq_some_iff.1 hrow
      rw [hsome]
      exact .reopen hreopens
    · exact .keep
  | reopened run epoch raised =>
    rw [callNext]
    split <;> exact .keep
  | adopted run stored => cases stored <;> exact .keep
  | _ => exact .keep

theorem row_step (h : s.step texts runId a = some t) : RowStep texts runId s.row t.row := by
  cases a with
  | insert row =>
    rw [step] at h
    split at h
    · cases h
      cases s.row with
      | none => exact .insert row
      | some stored => exact .keep
    · cases h
  | write statement =>
    cases h
    cases s.row with
    | none => exact .keep
    | some row => exact .write statement
  | onExecutionStarted c | prune c =>
    cases h
    exact .keep
  | recoverRunFromDb c =>
    rw [step] at h
    split at h <;> cases h
    exact .keep
  | reopenRecoveredRun run =>
    obtain ⟨r, -, rfl⟩ := map_eq_some_iff.1 h
    rw [reopenRecoveredRun]
    split <;> exact .keep
  | readRow c =>
    obtain ⟨row, -, rfl⟩ := map_eq_some_iff.1 h
    exact .keep
  | forwardRun run =>
    obtain ⟨r, -, rfl⟩ := map_eq_some_iff.1 h
    exact .keep
  | next k =>
    obtain ⟨call, -, rfl⟩ := map_eq_some_iff.1 h
    exact row_callNext
  | throws k =>
    obtain ⟨call, -, rfl⟩ := map_eq_some_iff.1 h
    exact .keep

/-- The generation of the row does not fall. -/
theorem RowStep.le {row row' : Option RunRow} (h : RowStep texts runId row row') :
    (row.map (·.statusEpoch)).getD 0 ≤ (row'.map (·.statusEpoch)).getD 0 := by
  cases h with
  | keep | insert | write => exact le_rfl
  | reopen hreopens =>
    obtain ⟨-, hepoch, -⟩ := of_decide_eq_true hreopens
    exact hepoch.trans_le (Nat.le_succ _)

/-- A run that failed, and runs then, has the next generation. -/
theorem RowStep.eq_succ {row row' : RunRow} (h : RowStep texts runId (some row) (some row'))
    (hfailed : row.status = .failed) (hrunning : row'.status = .running) :
    row'.statusEpoch = row.statusEpoch + 1 := by
  cases h with
  | keep => cases hfailed.symm.trans hrunning
  | write statement => exact absurd hrunning (statement.status_apply_ne_running runId hfailed)
  | reopen hreopens =>
    obtain ⟨-, hepoch, -⟩ := of_decide_eq_true hreopens
    exact congrArg (· + 1) hepoch.symm

/-! ## The memories -/

/-- What a call has read of the generation is at most `n`. -/
def CallBehind (n : ℕ) : EpochCall κ → Prop
  | .recovered _ row | .forward _ row => row.statusEpoch ≤ n
  | .reopened _ epoch raised => raised = true → epoch + 1 ≤ n
  | .adopted _ stored => ∀ epoch ∈ stored, epoch ≤ n
  | _ => True

/-- Nothing that is kept or was read of the generation is above the one of the row. -/
structure Behind (s : StatusEpochState κ) : Prop where
  objects : ∀ run ∈ s.objects, run.statusEpoch.getD 0 ≤ s.statusEpoch
  calls : ∀ call ∈ s.calls, CallBehind s.statusEpoch call
  forwarded : ∀ f ∈ s.forwarded, f.statusEpoch ≤ f.stored

omit [DecidableEq κ] in
theorem CallBehind.mono (h : CallBehind m call) (hle : m ≤ n) : CallBehind n call := by
  cases call with
  | recovered c row | forward c row => exact Nat.le_trans h hle
  | reopened run epoch raised => exact fun hraised => Nat.le_trans (h hraised) hle
  | adopted run stored => exact fun epoch hepoch => Nat.le_trans (h epoch hepoch) hle
  | _ => trivial

omit [DecidableEq κ] in
theorem Behind.of_new (h : s.Behind) (hepoch : s.statusEpoch ≤ t.statusEpoch)
    (hobjects : ∀ run ∈ t.objects, run ∈ s.objects ∨ run.statusEpoch.getD 0 ≤ t.statusEpoch)
    (hcalls : ∀ call ∈ t.calls, call ∈ s.calls ∨ CallBehind t.statusEpoch call)
    (hforwarded : ∀ f ∈ t.forwarded, f ∈ s.forwarded ∨ f.statusEpoch ≤ f.stored) : t.Behind where
  objects run hrun := (hobjects run hrun).elim (fun hold => (h.objects run hold).trans hepoch) id
  calls call hcall := (hcalls call hcall).elim (fun hold => (h.calls call hold).mono hepoch) id
  forwarded f hf := (hforwarded f hf).elim (h.forwarded f) id

omit [DecidableEq κ] in
theorem statusEpoch_of_row {row : RunRow} (h : s.row = some row) : s.statusEpoch = row.statusEpoch := by
  rw [statusEpoch, h]
  rfl

omit [DecidableEq κ] in
/-- A coordinator may set what it keeps to a generation that is not above the one of the row. -/
theorem Behind.setEpoch {run epoch : ℕ} (h : s.Behind) (hepoch : epoch ≤ s.statusEpoch) :
    (s.setEpoch run epoch).Behind := by
  refine h.of_new le_rfl (fun r hr => ?_) (fun _ => .inl) fun _ => .inl
  rcases mem_modify hr with hold | ⟨r', -, rfl⟩
  · exact .inl hold
  · exact .inr hepoch

omit [DecidableEq κ] in
/-- A coordinator may forward a generation that is not above the one of the row. -/
theorem Behind.forward {c : κ} {epoch : ℕ} (h : s.Behind) (hepoch : epoch ≤ s.statusEpoch) :
    (s.forward c epoch).Behind := by
  refine h.of_new le_rfl (fun _ => .inl) (fun _ => .inl) fun f hf => ?_
  rcases mem_append.1 hf with hold | hnew
  · exact .inl hold
  · rw [mem_singleton.1 hnew]
    exact .inr hepoch

theorem Behind.addRun {run : RunGeneration κ} (h : s.Behind)
    (hepoch : run.statusEpoch.getD 0 ≤ s.statusEpoch) : (s.addRun run).Behind := by
  refine h.of_new le_rfl (fun r hr => ?_) (fun _ => .inl) fun _ => .inl
  rcases mem_append.1 hr with hold | hnew
  · exact .inl hold
  · rw [mem_singleton.1 hnew]
    exact .inr hepoch

omit [DecidableEq κ] in
theorem Behind.addCall (h : s.Behind) (hcall : CallBehind s.statusEpoch call) :
    (s.addCall call).Behind := by
  refine h.of_new le_rfl (fun _ => .inl) (fun call' hmem => ?_) fun _ => .inl
  rcases mem_append.1 hmem with hold | hnew
  · exact .inl hold
  · rw [mem_singleton.1 hnew]
    exact .inr hcall

omit [DecidableEq κ] in
theorem recoveredRun_le {c : κ} {row : RunRow} (h : row.statusEpoch ≤ n) :
    (recoveredRun texts c row).statusEpoch.getD 0 ≤ n := by
  rw [recoveredRun]
  split
  · exact n.zero_le
  · exact h

/-- A call that goes on keeps what is known, and reads what the row says. -/
theorem Behind.callNext (h : s.Behind) (hcall : CallBehind s.statusEpoch call) :
    (s.callNext texts call).1.Behind ∧
      ∀ call' ∈ (s.callNext texts call).2, CallBehind (s.callNext texts call).1.statusEpoch call' := by
  cases call with
  | recoverRunFromDb c =>
    refine ⟨h, fun call' hcall' => ?_⟩
    obtain ⟨row, hrow, rfl⟩ := map_eq_some_iff.1 hcall'
    obtain ⟨hsome, -⟩ := filter_eq_some_iff.1 hrow
    exact (statusEpoch_of_row hsome).ge
  | recovered c row => exact ⟨h.addRun (recoveredRun_le hcall), fun _ hnone => by cases hnone⟩
  | reopen run epoch =>
    rw [callNext]
    split
    · next row hrow =>
      obtain ⟨hsome, hreopens⟩ := filter_eq_some_iff.1 hrow
      obtain ⟨-, hepoch, -⟩ := of_decide_eq_true hreopens
      have hle : s.statusEpoch ≤ epoch + 1 := by
        rw [statusEpoch_of_row hsome, hepoch]
        exact Nat.le_succ epoch
      refine ⟨h.of_new hle (fun _ => .inl) (fun _ => .inl) fun _ => .inl, fun call' hcall' => ?_⟩
      cases hcall'
      exact fun _ => le_rfl
    · refine ⟨h, fun call' hcall' => ?_⟩
      cases hcall'
      exact fun hraised => absurd hraised Bool.false_ne_true
  | reopened run epoch raised =>
    cases raised with
    | true => exact ⟨h.setEpoch (hcall rfl), fun _ hnone => by cases hnone⟩
    | false =>
      refine ⟨h, fun call' hcall' => ?_⟩
      cases hcall'
      trivial
  | adoptStoredStatusEpoch run =>
    refine ⟨h, fun call' hcall' => ?_⟩
    cases hcall'
    intro epoch hepoch
    exact (congrArg (fun epoch => Option.getD epoch 0) hepoch).ge
  | adopted run stored =>
    cases stored with
    | some epoch => exact ⟨h.setEpoch (hcall epoch rfl), fun _ hnone => by cases hnone⟩
    | none => exact ⟨h, fun _ hnone => by cases hnone⟩
  | forward c row => exact ⟨h.forward hcall, fun _ hnone => by cases hnone⟩

omit [DecidableEq κ] in
theorem behind_init : Behind ({} : StatusEpochState κ) := by
  refine ⟨fun run hrun => ?_, fun call hcall => ?_, fun f hf => ?_⟩
  · cases hrun
  · cases hcall
  · cases hf

theorem Behind.step (h : s.Behind) (hstep : s.step texts runId a = some t) : t.Behind := by
  have hepoch : s.statusEpoch ≤ t.statusEpoch := (row_step hstep).le
  cases a with
  | insert row =>
    rw [step] at hstep
    split at hstep <;> cases hstep
    exact h.of_new hepoch (fun _ => .inl) (fun _ => .inl) fun _ => .inl
  | write statement =>
    cases hstep
    exact h.of_new hepoch (fun _ => .inl) (fun _ => .inl) fun _ => .inl
  | onExecutionStarted c =>
    cases hstep
    exact h.addRun (Nat.zero_le _)
  | recoverRunFromDb c =>
    rw [step] at hstep
    split at hstep <;> cases hstep
    exact h.addCall trivial
  | reopenRecoveredRun run =>
    obtain ⟨r, hr, rfl⟩ := map_eq_some_iff.1 hstep
    rw [reopenRecoveredRun]
    split
    · refine Behind.addCall (h.of_new le_rfl (fun r' hr' => ?_) (fun _ => .inl) fun _ => .inl) trivial
      rcases mem_modify hr' with hold | ⟨r'', hr'', rfl⟩
      · exact .inl hold
      · exact .inr (h.objects r'' hr'')
    · exact h
  | readRow c =>
    obtain ⟨row, hrow, rfl⟩ := map_eq_some_iff.1 hstep
    exact h.addCall (statusEpoch_of_row hrow).ge
  | forwardRun run =>
    obtain ⟨r, hr, rfl⟩ := map_eq_some_iff.1 hstep
    exact h.forward (h.objects r (mem_of_getElem? hr))
  | prune c =>
    cases hstep
    exact h.of_new le_rfl (fun _ => .inl) (fun _ => .inl) fun _ => .inl
  | next k =>
    obtain ⟨call, hcall, rfl⟩ := map_eq_some_iff.1 hstep
    obtain ⟨hnext, hreads⟩ : (s.callNext texts call).1.Behind ∧ _ :=
      h.callNext (h.calls call (mem_of_getElem? hcall))
    refine hnext.of_new le_rfl (fun _ => .inl) (fun call' hcall' => ?_) fun _ => .inl
    rcases mem_or_mem_of_replaced hcall' with hold | hnew
    · exact .inl hold
    · exact .inr (hreads call' (mem_toList.1 hnew))
  | throws k =>
    obtain ⟨call, -, rfl⟩ := map_eq_some_iff.1 hstep
    refine h.of_new le_rfl (fun _ => .inl) (fun call' hcall' => ?_) fun _ => .inl
    rcases mem_or_mem_of_replaced hcall' with hold | hnew
    · exact .inl hold
    · cases hnew

end StatusEpochState

variable {κ : Type} [DecidableEq κ] {texts : LowerTexts} {runId : String} {s : StatusEpochState κ}

/-- The generation of a run never falls; a run that failed and runs again has the next one; and no
coordinator forwards a status with a generation above the one of the row. -/
theorem statusEpoch_ordered (h : (statusEpochSystem texts runId).Reachable anyStep s) :
    (∀ t, (statusEpochSystem texts runId).Path anyStep s t → s.statusEpoch ≤ t.statusEpoch) ∧
    (∀ a t row row', (statusEpochSystem texts runId).step s a = some t → s.row = some row →
      t.row = some row' →
      row.status = .failed → row'.status = .running → row'.statusEpoch = row.statusEpoch + 1) ∧
    ∀ f ∈ s.forwarded, f.statusEpoch ≤ f.stored := by
  refine ⟨fun t hpath => ?_, fun a t row row' hstep hrow hrow' hfailed hrunning => ?_, ?_⟩
  · exact hpath.relates (R := fun s t => s.statusEpoch ≤ t.statusEpoch) (fun _ => le_rfl)
      (fun _ _ _ => le_trans)
      fun s a t _ hstep => (row_step hstep).le
  · have hmove := row_step hstep
    rw [hrow, hrow'] at hmove
    exact hmove.eq_succ hfailed hrunning
  · have hbehind : s.Behind := h.invariant (fun s hs => by rw [hs]; exact behind_init)
      fun s a t hs _ hstep => hs.step hstep
    exact hbehind.forwarded

/-- Two coordinators read a failed run back, and both reopen it: one of them raises the generation,
and the other one gets to know it, after it has forwarded the old one. -/
theorem statusEpoch_ordered_twoCoordinators : ∃ s : StatusEpochState Bool,
    (statusEpochSystem ⟨id, id⟩ "run").Reachable anyStep s ∧
      s.forwarded = [⟨false, 1, 1⟩, ⟨true, 0, 1⟩, ⟨true, 1, 1⟩] ∧ ∀ f ∈ s.forwarded,
      f.statusEpoch ≤ f.stored := by
  obtain ⟨s, hpath, hs⟩ := (statusEpochSystem ⟨id, id⟩ "run").exists_path {}
      (fun s => s.forwarded = [⟨false, 1, 1⟩, ⟨true, 0, 1⟩, ⟨true, 1, 1⟩]) anyStep_of_true [
      .insert {
        runId := "run"
        status := .failed
        failureReason := some "No agents available to dispatch jobs" },
      .recoverRunFromDb false,
      .recoverRunFromDb true,
      .next 0,
      .next 1,
      .next 0,
      .next 0,
      .reopenRecoveredRun 0,
      .reopenRecoveredRun 1,
      .next 0,
      .next 1,
      .next 0,
      .forwardRun 0,
      .forwardRun 1,
      .next 0,
      .next 0,
      .next 0,
      .forwardRun 1] (by decide)
  have h : (statusEpochSystem ⟨id, id⟩ "run").Reachable anyStep s := ⟨_, rfl, hpath⟩
  exact ⟨s, h, hs, (statusEpoch_ordered h).2.2⟩

end Kici
