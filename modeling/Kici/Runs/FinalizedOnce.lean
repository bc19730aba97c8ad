import Kici.Runs.Reports

/-!
# Finalizing a run once

A job that is over keeps its status, whatever is reported of it. But a run may be finalized twice: a
call looks whether the run is completed, waits, and does not look again, and an inline call may do
so at the same time (`exists_finalized_twice`); and a run that is over comes back into memory with a
late report.

Reports finalize a run once if a call only finalizes a run that is not completed, the one that came
into the memory of its coordinator last, and not after it was over (`FinalizesLive`): see
`statuses_kept_and_finalized_once`.
-/

namespace Kici

open List Option Bool ExecutionRun ReportsState RunsDb Table Update

variable {f : RunState → RunState} {jobs : List TrackedJob}

/-! ## Rows that are over -/

/-- An update after which a run that was over is over. -/
def Update.KeepsOver (u : Update runId) : Prop :=
  ∀ row : ExecutionRun, row.status ∈ TERMINAL_RUN_STATES → (u.apply row).status ∈ TERMINAL_RUN_STATES

theorem Update.KeepsFinished.keepsOver {u : Update runId} (h : u.KeepsFinished) : u.KeepsOver := by
  intro row hrow
  rw [apply]
  split
  · next hg => rwa [h row hg hrow]
  · exact hrow

theorem keepsOver_of_set {u : Update runId} (h : ∀ row, (u.set row).status ∈ TERMINAL_RUN_STATES) :
    u.KeepsOver := by
  intro row hrow
  rw [apply]
  split
  · exact h row
  · exact hrow

open ExecutionRun in
/-- No statement but the one that reopens it makes a run go on that is over. -/
theorem RunStatement.keepsOver (runId : String) (statement : RunStatement) :
    (statement.update runId).KeepsOver := by
  cases statement with
  | maybeTransitionRunToRunning => exact toRunningUpdate_keepsFinished.keepsOver
  | maybeTransitionRunToCancelling => exact toCancellingUpdate_keepsFinished.keepsOver
  | finalizeRunCompletion => exact finalizeUpdate_keepsFinished.keepsOver
  | onBuildFailed => exact buildFailedUpdate_keepsFinished.keepsOver
  | completeRunIfAllJobsTerminal => exact staleUpdate_keepsFinished.keepsOver
  | recordNeverStartedRun => exact neverStartedUpdate_keepsFinished.keepsOver
  | recordRunHeld => exact heldUpdate_keepsFinished.keepsOver
  | claimHeldGlobalEvalRound => exact claimRoundUpdate_keepsFinished.keepsOver
  | completeReleasedGlobalEvalRound => exact settleRoundUpdate_keepsFinished.keepsOver
  | resumeHeldRun => exact resumeUpdate_keepsFinished.keepsOver
  | cancelHeldRun => exact cancelHeldUpdate_keepsFinished.keepsOver
  | cancelJoblessRun jobless reason =>
    have hjobless : (cancelJoblessUpdate (fun _ => jobless) runId reason).KeepsFinished :=
      cancelJoblessUpdate_keepsFinished
    exact hjobless.keepsOver
  | failOrphanRun => exact failOrphanUpdate_keepsFinished.keepsOver
  | staleFailureReason | openWindow | clearWindow => exact (keepsFinished_of_set fun _ => rfl).keepsOver
  | failRun => exact keepsOver_of_set fun _ => mem_cons_of_mem _ mem_cons_self
  | cancelRun => exact keepsOver_of_set fun _ => mem_cons_of_mem _ (mem_cons_of_mem _ mem_cons_self)

namespace RunsDb

variable {db : RunsDb} {runId jobId : String} {status : ExecutionJobStatus}

/-- Whether the row of a run is over. -/
def isOver (db : RunsDb) (runId : String) : Bool := (db.statusOf runId).any (· ∈ TERMINAL_RUN_STATES)

theorem isOver_updateRuns {u : Update ExecutionRun.runId} (h : u.KeepsOver) (hover : db.isOver runId) :
    (db.updateRuns u).isOver runId := by
  rw [isOver, Option.any_eq_true] at hover ⊢
  obtain ⟨status, hstatus, hterminal⟩ := hover
  obtain ⟨row, hrow, rfl⟩ := map_eq_some_iff.1 hstatus
  rw [statusOf_updateRuns, hrow]
  exact ⟨_, rfl, decide_eq_true (h row (of_decide_eq_true hterminal))⟩

theorem isOver_insertNew {row : ExecutionRun} (hover : db.isOver runId) :
    isOver { db with executionRuns := db.executionRuns.insertNew row } runId := by
  rw [isOver, statusOf] at hover ⊢
  cases hrow : db.executionRuns.lookup runId with
  | none =>
    rw [hrow] at hover
    cases hover
  | some stored =>
    rw [hrow] at hover
    rwa [lookup_insertNew hrow]

/-- The write of a run that is completed leaves its row over, if there is one. -/
theorem isOver_finalize {overallStatus : ExecutionRunStatus} {failureReason : Option JsString}
    {failureClass : Option RunFailureClass} (hstatus : overallStatus ∈ TERMINAL_RUN_STATES)
    (hrow : (db.statusOf runId).isSome) :
    (db.updateRuns (finalizeUpdate runId overallStatus failureReason failureClass)).isOver runId =
      true := by
  rw [isOver, statusOf_updateRuns]
  rw [statusOf, isSome_map] at hrow
  obtain ⟨row, hrow⟩ := isSome_iff_exists.1 hrow
  rw [hrow, map_some, any_some, decide_eq_true_eq]
  by_cases hover : row.status ∈ TERMINAL_RUN_STATES
  · exact finalizeUpdate_keepsFinished.keepsOver row hover
  · rw [apply_of_guard (decide_eq_true ⟨(lookup_eq_some.1 hrow).2, hover⟩)]
    exact hstatus

/-! ## Jobs that are over -/

section

variable (h : db.jobStatusOf runId jobId = some status)
include h

theorem jobStatusOf_persistJobStatus {job : RunJob}
    (hterminal : status ∈ TERMINAL_JOB_STATES) : (db.persistJobStatus job).jobStatusOf runId jobId =
    some status := by
  obtain ⟨row, hrow, rfl⟩ := map_eq_some_iff.1 h
  rw [persistJobStatus.eq_def]
  split
  · rw [jobStatusOf, lookup_execute, hrow, map_some, map_some, apply_of_not_guard]
    exact decide_eq_false fun hg => hg.2 hterminal
  · rw [jobStatusOf, lookup_insertNew hrow, map_some]

theorem jobStatusOf_insertTrackedJobRows :
    (db.insertTrackedJobRows runId jobs).jobStatusOf runId jobId = some status := by
  obtain ⟨row, hrow, rfl⟩ := map_eq_some_iff.1 h
  have hfold : ∀ rows : Table RunJob.key, rows.lookup (runId, jobId) = some row →
      (jobs.foldl (fun rows job =>
        rows.insertNew ⟨runId, job.jobId, job.name, job.workflowName, .pending⟩)
        rows).lookup (runId, jobId) = some row := by
    induction jobs with
    | nil => exact fun rows hrows => hrows
    | cons job jobs ih => exact fun rows hrows => ih _ (lookup_insertNew hrows _)
  rw [jobStatusOf, insertTrackedJobRows, hfold _ hrow, map_some]

theorem jobStatusOf_cancelJobsOfStoppedRun
    (hterminal : status ∈ TERMINAL_JOB_STATES) :
    (db.cancelJobsOfStoppedRun runId jobs).jobStatusOf runId jobId = some status := by
  obtain ⟨row, hrow, rfl⟩ := map_eq_some_iff.1 h
  rw [cancelJobsOfStoppedRun]
  split
  · rw [jobStatusOf, lookup_execute, hrow, map_some, map_some, apply_of_not_guard]
    refine decide_eq_false fun hg => ?_
    obtain ⟨-, -, hwaits⟩ := hg
    revert hterminal hwaits
    cases row.status <;> decide
  · exact h

theorem jobStatusOf_deleteJob {other : String} (hne : jobId ≠ other) :
    (db.deleteJob runId other).jobStatusOf runId jobId = some status := by
  obtain ⟨row, hrow, rfl⟩ := map_eq_some_iff.1 h
  obtain ⟨hmem, hkey⟩ := lookup_eq_some.1 hrow
  have hrow' : (db.deleteJob runId other).executionJobs.lookup (runId, jobId) = some row := by
    refine lookup_eq_some.2 ⟨mem_filter.2 ⟨hmem, decide_eq_true ?_⟩, hkey⟩
    rw [hkey]
    exact fun heq => hne (Prod.mk.inj heq).2
  rw [jobStatusOf, hrow', map_some]

end

end RunsDb

/-! ## What does not matter -/

/-- A run is completed, or was over when it came into memory again. -/
def TrackedRun.Spent {κ : Type} (r : TrackedRun κ) : Prop := r.run.completedAt = true ∨ r.late = true

/-- A call is about to write the row of the run as over. -/
def RunCallPoint.Ends : RunCallPoint → Prop
  | .finalizeWrite status _ _ => status ∈ TERMINAL_RUN_STATES
  | _ => False

theorem RunCallPoint.not_ends_of_isFinalizeWrite {point : RunCallPoint}
    (h : point.isFinalizeWrite = false) : ¬point.Ends := by
  cases point with
  | finalizeWrite => cases h
  | _ => exact id

theorem RunCallPoint.not_ends_of_finalizes {point : RunCallPoint} {instanceId : Option String}
    {live : Bool} {ref : ℕ} (h : point.finalizes? instanceId live = some ref) : ¬point.Ends := by
  cases point with
  | finalizeWrite => cases h
  | _ => exact id

namespace ReportsState

variable {κ : Type} {s t u : ReportsState κ} {runId : String} {c : κ} {ref : ℕ} {r : TrackedRun κ}

/-- The coordinators of the runs that are, or were, in the memories. -/
def coordinators (s : ReportsState κ) : List κ := s.objects.map (·.coordinator)

/-- The run at the place came into the memory of the coordinator last. -/
def IsLast (s : ReportsState κ) (c : κ) (ref : ℕ) : Prop :=
  s.coordinators[ref]? = some c ∧ c ∉ s.coordinators.drop (ref + 1)

theorem IsLast.le {ref' : ℕ} (h : s.IsLast c ref) (h' : s.IsLast c ref') : ref' ≤ ref := by
  by_contra hlt
  refine h.2 (mem_of_getElem? (i := ref' - (ref + 1)) ?_)
  rw [getElem?_drop, Nat.add_sub_cancel' (Nat.lt_of_not_le hlt)]
  exact h'.1

theorem IsLast.unique {ref' : ℕ} (h : s.IsLast c ref) (h' : s.IsLast c ref') : ref = ref' :=
  le_antisymm (h'.le h) (h.le h')

/-- Nothing is finalized or reopened, no run comes into a memory, and what is over or completed
stays so. -/
structure Quiet (runId : String) (s t : ReportsState κ) : Prop where
  events : t.events = s.events
  coordinators : t.coordinators = s.coordinators
  spent : ∀ (ref : ℕ) r r', s.objects[ref]? = some r → t.objects[ref]? = some r' → r.Spent → r'.Spent
  isOver : s.db.isOver runId = true → t.db.isOver runId = true

theorem Quiet.refl : Quiet runId s s where
  events := rfl
  coordinators := rfl
  spent _ r r' hr hr' hspent := by
    cases hr.symm.trans hr'
    exact hspent
  isOver := id

theorem Quiet.of_eq (hevents : t.events = s.events) (hobjects : t.objects = s.objects)
    (hover : s.db.isOver runId → t.db.isOver runId) : Quiet runId s t where
  events := hevents
  coordinators := by rw [ReportsState.coordinators, ReportsState.coordinators, hobjects]
  spent := by
    have hrefl : Quiet runId s s := .refl
    exact hobjects ▸ hrefl.spent
  isOver := hover

theorem Quiet.trans (h : Quiet runId s t) (h' : Quiet runId t u) : Quiet runId s u where
  events := h'.events.trans h.events
  coordinators := h'.coordinators.trans h.coordinators
  spent ref r r'' hr hr'' hspent := by
    have hlt : ref < t.coordinators.length := by
      rw [h.coordinators, ReportsState.coordinators, length_map]
      exact (List.getElem?_eq_some_iff.1 hr).1
    rw [ReportsState.coordinators, length_map] at hlt
    have hr' := getElem?_eq_getElem hlt
    exact h'.spent ref _ r'' hr' hr'' (h.spent ref r _ hr hr' hspent)
  isOver hover := h'.isOver (h.isOver hover)

/-- Rows are written, and the row of the run stays over. -/
theorem quiet_withDb {db : RunsDb} (hover : s.db.isOver runId → db.isOver runId) :
    Quiet runId s (s.withDb db) := .of_eq rfl rfl hover

/-- A run changes in memory, and stays completed. -/
theorem quiet_modify {f : TrackedRun κ → TrackedRun κ}
    (hcoordinator : ∀ r, (f r).coordinator = r.coordinator)
    (hspent : ∀ r, r.Spent → (f r).Spent) : Quiet runId s (s.modify ref f) where
  events := rfl
  coordinators := by
    refine ext_getElem? fun i => ?_
    rw [coordinators, coordinators, modify, getElem?_map, getElem?_map, getElem?_modify,
      Option.map_eq_map, Option.map_map]
    refine congrArg (Option.map · _) (funext fun r => ?_)
    dsimp only [Function.comp]
    split
    · exact hcoordinator r
    · rfl
  spent i r r' hr hr' h := by
    rw [modify, getElem?_modify, hr] at hr'
    cases hr'
    dsimp only
    split
    · exact hspent r h
    · exact h
  isOver := id

theorem quiet_modifyRun
    (hf : ∀ run : RunState, run.completedAt → (f run).completedAt) : Quiet runId s (s.modifyRun ref f) :=
  quiet_modify (fun _ => rfl) fun r h => h.imp_left (hf r.run)

/-! ## What a call does -/

variable [DecidableEq κ] {texts : LowerTexts} {instanceId : κ → Option String} {kind : RunCallKind}
  {answer : RunCallAnswer} {point : RunCallPoint}

/-- What a call does that goes on and does not finalize the run. -/
inductive Effect (runId : String) (s : ReportsState κ) (c : κ) : ReportsState κ → Prop
  | quiet {t : ReportsState κ} (h : Quiet runId s t) : Effect runId s c t
  | addRun (r : TrackedRun κ) (h : r.coordinator = c) : Effect runId s c (s.addRun runId r)
  | reopen {t : ReportsState κ} (h : t.events = s.events ++ [.reopened]) : Effect runId s c t

omit [DecidableEq κ] in
theorem quiet_begin : Quiet runId s (s.begin c kind).1 := by
  cases kind with
  | onJobStatus | addJobsToRun =>
    rw [begin]
    split <;> exact .refl
  | releasePendingJobsHold =>
    rw [begin]
    split
    · exact .refl
    · split
      · exact .refl
      · dsimp only
        split <;> exact quiet_modifyRun fun _ h => h

omit [DecidableEq κ] in
theorem quiet_reopenRecoveredRun : Quiet runId s (s.reopenRecoveredRun ref).1 := by
  rw [reopenRecoveredRun]
  split
  · split
    · exact quiet_modify (fun _ => rfl) fun _ h => h
    · exact .refl
  · exact .refl

theorem completedAt_foldRows (rows : List RunJob) {run : RunState} (h : run.completedAt) :
    (TrackerState.foldRows rows run).completedAt := by
  rw [TrackerState.foldRows]
  induction rows generalizing run with
  | nil => exact h
  | cons row rows ih =>
    refine ih ?_
    dsimp only
    split
    · exact h
    · split <;> exact h

theorem completedAt_foldl_setJob (jobs : List TrackedJob) {run : RunState} (h : run.completedAt) :
    (jobs.foldl (fun run job => if (run.job job.jobId).isSome then run else run.setJob job)
      run).completedAt = true := by
  induction jobs generalizing run with
  | nil => exact h
  | cons job jobs ih =>
    refine ih ?_
    dsimp only
    split <;> exact h

theorem effect_nextOf (hfinalizes : point.finalizes? (instanceId c) answer.live = none)
    (hwrite : point.isFinalizeWrite = false) :
    Effect runId s c (s.nextOf texts instanceId runId c kind answer point).1 := by
  rw [nextOf.eq_def, hfinalizes]
  cases point with
  | start => exact .quiet quiet_begin
  | recovered row statusEpoch => exact .addRun _ rfl
  | recoverJobFromDispatchQueue ref | report ref =>
    cases kind with
    | onJobStatus jobId state =>
      dsimp only
      refine .quiet (quiet_modifyRun ?_)
      exact fun _ h => h
    | _ => exact .quiet .refl
  | persistJobStatusUpdate ref =>
    cases kind with
    | onJobStatus jobId state =>
      refine .quiet (quiet_withDb fun hover => ?_)
      rwa [RunsDb.isOver, RunsDb.statusOf_persistJobStatus]
    | _ => exact .quiet .refl
  | persisted ref applied =>
    cases applied with
    | true => exact .quiet quiet_reopenRecoveredRun
    | false => exact .quiet .refl
  | readJobStatus ref | jobStatusRead ref storedStatus | hooks ref => cases kind <;> exact .quiet .refl
  | runStatusRead ref runStatus =>
    dsimp only
    split
    · split
      · refine .quiet (quiet_modifyRun fun run h => ?_)
        rwa [RunState.releaseFinishedElsewhere, if_pos h]
      · exact .quiet .refl
    · exact .quiet quiet_reopenRecoveredRun
  | reopen ref epoch =>
    dsimp only
    split
    · exact .reopen rfl
    · exact .quiet .refl
  | reopened ref epoch raised =>
    cases raised with
    | true => exact .quiet (quiet_modify (fun _ => rfl) fun _ h => h)
    | false => exact .quiet .refl
  | adoptStoredStatusEpoch ref =>
    dsimp only
    split
    · exact .quiet (quiet_modify (fun _ => rfl) fun _ h => h)
    · exact .quiet .refl
  | replaceSynthetic ref =>
    dsimp only
    split
    · refine .quiet ((quiet_modifyRun ?_).trans (quiet_withDb fun hover => hover))
      exact fun _ h => h
    · exact .quiet .refl
  | registerJobs ref jobs reEvaluate =>
    cases jobs with
    | nil => exact .quiet .refl
    | cons job jobs =>
      dsimp only
      refine .quiet (quiet_modifyRun ?_)
      exact fun _ h => h
  | insertTrackedJobRows ref reEvaluate =>
    cases kind with
    | addJobsToRun jobs replaceSyntheticId => exact .quiet (quiet_withDb id)
    | _ => exact .quiet .refl
  | cancelJobsOfStoppedRun ref reEvaluate =>
    cases kind with
    | addJobsToRun jobs replaceSyntheticId =>
      refine .quiet (quiet_withDb fun hover => ?_)
      rw [cancelJobsOfStoppedRun]
      split <;> exact hover
    | _ => exact .quiet .refl
  | clearRegistrationWindow ref =>
    dsimp only
    split
    · next id _ =>
      exact .quiet (quiet_withDb
        (RunsDb.isOver_updateRuns (RunStatement.keepsOver runId (.clearWindow id))))
    · exact .quiet .refl
  | synced ref rows ready => exact .quiet (quiet_modifyRun fun _ h => completedAt_foldRows rows h)
  | finalizeWrite status failureReason failureClass => cases hwrite
  | withRunLock | recoverRunFromDb | readRunStatus ref | syncRunJobsFromRows ref ready
  | checkSchedulerInvariant ref | registrationWindow ref | registrationWindowRead ref holder
  | liveInstanceIds ref => exact .quiet .refl

/-! ## Runs that are over -/

/-- The run was finalized by the coordinator: its row is over or will be, and what came into its
memory last is completed, or came there late. -/
structure Ended (runId : String) (s : ReportsState κ) (c : κ) : Prop where
  written : s.db.isOver runId = true ∨ ∃ call ∈ s.calls, call.coordinator = c ∧ call.point.Ends
  last : ∀ ref r, s.IsLast c ref → s.objects[ref]? = some r → r.Spent
  known : c ∈ s.coordinators

/-- A coordinator that has finalized the run since it was reopened has ended it. -/
structure Sound (runId : String) (s : ReportsState κ) : Prop where
  ended : ∀ c before between, s.events = before ++ .finalized c :: between → .reopened ∉ between →
    s.Ended runId c
  once : ∀ c before between after, s.events = before ++ .finalized c :: between ++
    .finalized c :: after →
    .reopened ∈ between

theorem Ended.isOver (h : s.Ended runId c) : s.isOver runId c := by
  refine or_eq_true_iff.2 (h.written.imp id fun hpending => ?_)
  obtain ⟨call, hcall, rfl, hends⟩ := hpending
  refine any_eq_true.2 ⟨call, hcall, ?_⟩
  revert hends
  cases call.point <;> simp [RunCallPoint.Ends, RunCallPoint.isFinalizeWrite]

omit [DecidableEq κ] in
/-- What has ended stays so, if calls that are to write its row still are, or have. -/
theorem Ended.of_quiet (h : s.Ended runId c) (hquiet : Quiet runId s t)
    (hcalls : ∀ call ∈ s.calls, call.point.Ends → call ∈ t.calls ∨ t.db.isOver runId) :
    t.Ended runId c where
  written := by
    rcases h.written with hover | ⟨call, hcall, hc, hends⟩
    · exact .inl (hquiet.isOver hover)
    · exact (hcalls call hcall hends).symm.imp_right fun hcall => ⟨call, hcall, hc, hends⟩
  last ref r hlast hr := by
    rw [IsLast, hquiet.coordinators] at hlast
    have hr₀ : s.coordinators[ref]? = some c := hlast.1
    rw [coordinators, getElem?_map] at hr₀
    obtain ⟨r₀, hr₀, -⟩ := map_eq_some_iff.1 hr₀
    exact hquiet.spent ref r₀ r hr₀ hr (h.last ref r₀ hlast hr₀)
  known := hquiet.coordinators ▸ h.known

omit [DecidableEq κ] in
theorem Sound.of_quiet (h : s.Sound runId) (hquiet : Quiet runId s t)
    (hcalls : ∀ call ∈ s.calls, call.point.Ends → call ∈ t.calls ∨ t.db.isOver runId) :
    t.Sound runId where
  ended c before between hevents hreopened :=
    (h.ended c before between (hquiet.events ▸ hevents) hreopened).of_quiet hquiet hcalls
  once c before between after hevents := h.once c before between after (hquiet.events ▸ hevents)

/-- The last element of a list that has an element in it. -/
theorem eq_or_of_concat_eq {α : Type*} {l before between : List α} {a x : α}
    (h : l ++ [a] = before ++ x :: between) :
    (a = x ∧ between = [] ∧ l = before) ∨ ∃ rest, between = rest ++ [a] ∧ l = before ++ x :: rest := by
  rcases eq_nil_or_concat between with rfl | ⟨rest, b, rfl⟩
  · obtain ⟨hl, ha⟩ := append_inj' h rfl
    exact .inl ⟨singleton_inj.1 ha, rfl, hl⟩
  · rw [concat_eq_append, ← cons_append, ← append_assoc] at h
    obtain ⟨hl, ha⟩ := append_inj' h rfl
    exact .inr ⟨rest, by rw [concat_eq_append, singleton_inj.1 ha], hl⟩

omit [DecidableEq κ] in
/-- When the run is reopened no coordinator has finalized it since. -/
theorem Sound.of_reopen (h : s.Sound runId) (hevents : t.events = s.events ++ [.reopened]) :
    t.Sound runId where
  ended c before between heq hreopened := by
    rw [hevents] at heq
    rcases eq_or_of_concat_eq heq with ⟨hne, -⟩ | ⟨rest, rfl, -⟩
    · cases hne
    · exact absurd (mem_append_right _ mem_cons_self) hreopened
  once c before between after heq := by
    rw [hevents] at heq
    rcases eq_or_of_concat_eq heq with ⟨hne, -⟩ | ⟨rest, -, heq⟩
    · cases hne
    · exact h.once c before between rest heq

theorem mem_drop_of_append {α : Type*} {l : List α} {a b : α} {i : ℕ} (h : a ∉ (l ++ [b]).drop i) :
    a ∉ l.drop i := by
  intro hmem
  rw [drop_append] at h
  exact h (mem_append_left _ hmem)

/-- A run comes into the memory of a coordinator; if the coordinator had ended it, it comes late. -/
theorem Sound.addRun (h : s.Sound runId) : (s.addRun runId r).Sound runId where
  ended c before between hevents hreopened := by
    have hended : s.Ended runId c := h.ended c before between hevents hreopened
    have hcoordinators : (s.addRun runId r).coordinators = s.coordinators ++ [r.coordinator] := by
      rw [coordinators, coordinators, ReportsState.addRun, map_append]
      rfl
    refine ⟨hended.written, fun ref r' hlast hr' => ?_, ?_⟩
    · rw [IsLast, hcoordinators] at hlast
      rw [ReportsState.addRun, getElem?_append] at hr'
      split at hr'
      · next hlt =>
        refine hended.last ref r' ⟨?_, mem_drop_of_append hlast.2⟩ hr'
        have hlt' : ref < s.coordinators.length := by rwa [coordinators, length_map]
        rw [← hlast.1, getElem?_append_left hlt']
      · next hlt =>
        -- The new run is the last one.
        have href : ref = s.coordinators.length := by
          have hlength := (List.getElem?_eq_some_iff.1 hr').1
          rw [length_singleton] at hlength
          rw [coordinators, length_map]
          omega
        have hc := hlast.1
        rw [href, getElem?_concat_length] at hc
        cases hc
        obtain ⟨-, rfl⟩ := List.getElem?_eq_some_iff.1 hr'
        rw [getElem_singleton]
        obtain ⟨before, hmem, hknown⟩ := mem_map.1 hended.known
        exact .inr (and_eq_true_iff.2
          ⟨hended.isOver, any_eq_true.2 ⟨before, hmem, decide_eq_true hknown⟩⟩)
    · rw [hcoordinators]
      exact mem_append_left _ hended.known
  once := h.once

omit [DecidableEq κ] in
/-- What `finalizeRunCompletion` does to a run that is in memory. -/
theorem finalizeRunCompletion_eq (hr : s.objects[ref]? = some r) :
    ∃ f : RunState → RunState, (∀ run, (f run).completedAt) ∧ ∃ status failureReason failureClass,
      status ∈ TERMINAL_RUN_STATES ∧ s.finalizeRunCompletion c ref =
        ({ s.modifyRun ref f with events := s.events ++ [.finalized c] },
          some (.finalizeWrite status failureReason failureClass)) := by
  rw [finalizeRunCompletion, hr]
  exact ⟨_, fun _ => rfl, _, _, _, RunState.computeRunStatus_terminal, rfl⟩

omit [DecidableEq κ] in
/-- A coordinator finalizes the run that came into its memory last, and was neither completed nor
came late. -/
theorem Sound.finalize (h : s.Sound runId)
    (hr : s.objects[ref]? = some r) (hlast : s.IsLast c ref) (hspent : ¬r.Spent)
    (hf : ∀ run, (f run).completedAt) (hevents : t.events = s.events ++ [.finalized c])
    (hobjects : t.objects = (s.modifyRun ref f).objects) (hdb : t.db = s.db)
    (hcalls : ∀ call ∈ s.calls, call.point.Ends → call ∈ t.calls)
    (hends : ∃ call ∈ t.calls, call.coordinator = c ∧ call.point.Ends) : t.Sound runId := by
  have hnot : ¬s.Ended runId c := fun hended => hspent (hended.last ref r hlast hr)
  have hquiet : Quiet runId s { t with events := s.events } := by
    have hmodify : Quiet runId s (s.modifyRun ref f) := quiet_modifyRun fun run _ => hf run
    exact ⟨rfl, (congrArg _ hobjects).trans hmodify.coordinators, hobjects ▸ hmodify.spent, hdb ▸ id⟩
  have hcoordinators : t.coordinators = s.coordinators := hquiet.coordinators
  constructor
  · intro c' before between heq hreopened
    rw [hevents] at heq
    rcases eq_or_of_concat_eq heq with ⟨hc, -, -⟩ | ⟨rest, rfl, hold⟩
    · cases hc
      refine ⟨.inr hends, fun ref' r' hlast' hr' => ?_, ?_⟩
      · rw [IsLast, hcoordinators] at hlast'
        have href : ref' = ref := IsLast.unique hlast' hlast
        rw [href, hobjects, modifyRun, modify, getElem?_modify, hr] at hr'
        simp only [if_true] at hr'
        cases hr'
        exact .inl (hf r.run)
      · rw [hcoordinators]
        exact mem_of_getElem? hlast.1
    · have hended : s.Ended runId c' :=
        h.ended c' before rest hold fun hmem => hreopened (mem_append_left _ hmem)
      have ht := hended.of_quiet hquiet fun call hcall hends => .inl (hcalls call hcall hends)
      exact ⟨ht.written, ht.last, ht.known⟩
  · intro c' before between after heq
    rw [hevents] at heq
    rcases eq_or_of_concat_eq heq with ⟨hc, -, heq⟩ | ⟨rest, -, heq⟩
    · cases hc
      by_contra hreopened
      exact hnot (h.ended c before between heq hreopened)
    · exact h.once c' before between rest heq

/-! ## Steps -/

omit [DecidableEq κ] in
theorem db_begin : (s.begin c kind).1.db = s.db := by
  cases kind with
  | onJobStatus jobId state | addJobsToRun jobs replaceSyntheticId =>
    rw [begin]
    split <;> rfl
  | releasePendingJobsHold =>
    rw [begin]
    split
    · rfl
    · split
      · rfl
      · dsimp only
        split <;> rfl

omit [DecidableEq κ] in
theorem db_reopenRecoveredRun : (s.reopenRecoveredRun ref).1.db = s.db := by
  rw [reopenRecoveredRun]
  split
  · split <;> rfl
  · rfl

/-- A call that goes on leaves jobs that are over, unless it registers a job in the place of one. -/
theorem jobStatusOf_nextOf {jobId : String} {status : ExecutionJobStatus}
    (h : s.db.jobStatusOf runId jobId = some status) (hterminal : status ∈ TERMINAL_JOB_STATES)
    (hkind : ∀ jobs, kind ≠ .addJobsToRun jobs (some jobId)) :
    (s.nextOf texts instanceId runId c kind answer point).1.db.jobStatusOf runId jobId =
    some status := by
  rw [nextOf.eq_def]
  split
  · rw [finalizeRunCompletion.eq_def]
    split <;> exact h
  cases point with
  | start =>
    dsimp only
    rw [db_begin]
    exact h
  | recoverJobFromDispatchQueue ref | report ref | readJobStatus ref | jobStatusRead ref storedStatus
  | hooks ref =>
    cases kind <;> exact h
  | persistJobStatusUpdate ref =>
    cases kind with
    | onJobStatus jobId' state => exact jobStatusOf_persistJobStatus h hterminal
    | _ => exact h
  | persisted ref applied =>
    cases applied with
    | true =>
      dsimp only
      rw [if_pos rfl, db_reopenRecoveredRun]
      exact h
    | false => exact h
  | runStatusRead ref runStatus =>
    dsimp only
    split
    · split <;> exact h
    · rw [db_reopenRecoveredRun]
      exact h
  | reopen ref epoch | adoptStoredStatusEpoch ref | clearRegistrationWindow ref =>
    dsimp only
    split <;> exact h
  | reopened ref epoch raised => cases raised <;> exact h
  | replaceSynthetic ref =>
    dsimp only
    split
    · next jobs syntheticId =>
      refine jobStatusOf_deleteJob h fun heq => hkind jobs ?_
      rw [heq]
    · exact h
  | registerJobs ref jobs reEvaluate => cases jobs <;> exact h
  | insertTrackedJobRows ref reEvaluate =>
    cases kind with
    | addJobsToRun jobs replaceSyntheticId => exact jobStatusOf_insertTrackedJobRows h
    | _ => exact h
  | cancelJobsOfStoppedRun ref reEvaluate =>
    cases kind with
    | addJobsToRun jobs replaceSyntheticId => exact jobStatusOf_cancelJobsOfStoppedRun h hterminal
    | _ => exact h
  | withRunLock | recoverRunFromDb | recovered row statusEpoch | readRunStatus ref
  | syncRunJobsFromRows ref ready
  | synced ref rows ready | checkSchedulerInvariant ref | registrationWindow ref
  | registrationWindowRead ref holder
  | liveInstanceIds ref | finalizeWrite status failureReason failureClass => exact h

end ReportsState

/-- A run is finalized that is not completed, came into the memory of its coordinator last, and not
after it was over, unless it was reopened since; and its row is there and is written. -/
structure FinalizesLive {κ : Type} (instanceId : κ → Option String) (runId : String) (s : ReportsState κ)
    (a : ReportsAction κ) : Prop where
  finalizes : ∀ k answer, a = .next k answer → ∀ call ∈ s.calls[k]?,
    ∀ ref ∈ call.point.finalizes? (instanceId call.coordinator) answer.live, ∀ r ∈ s.objects[ref]?,
      ¬r.Spent ∧ s.IsLast call.coordinator ref
  writes : ∀ k, ∀ call ∈ s.calls[k]?, call.point.isFinalizeWrite = true →
    a ≠ .throws k ∧ ∀ answer, a = .next k answer → (s.db.statusOf runId).isSome

namespace ReportsState

variable {κ : Type} [DecidableEq κ] {texts : LowerTexts} {instanceId : κ → Option String}
  {runId : String} {s t : ReportsState κ} {a : ReportsAction κ}

theorem Sound.next {k : ℕ} {answer : RunCallAnswer} {call : RunCall κ} (h : s.Sound runId)
    (hlive : FinalizesLive instanceId runId s (.next k answer)) (hcall : s.calls[k]? = some call) :
    Sound runId { (s.nextOf texts instanceId runId call.coordinator call.kind answer call.point).1 with
      calls := s.calls.take k ++
        ((s.nextOf texts instanceId runId call.coordinator call.kind answer call.point).2.map
          fun point => { call with point }).toList ++ s.calls.drop (k + 1) } := by
  -- What is about to be written still is, but for what the call itself wrote.
  have hcalls (rest : List (RunCall κ)) : ∀ call' ∈ s.calls, call'.point.Ends →
      call' ∈ s.calls.take k ++ rest ++ s.calls.drop (k + 1) ∨ call.point.Ends := by
    intro call' hcall' hends
    have hreplaced : call' = call ∨ call' ∈ s.calls.take k ++ rest ++ s.calls.drop (k + 1) :=
      eq_or_mem_replaced hcall hcall'
    rcases hreplaced with rfl | hmem
    · exact .inr hends
    · exact .inl hmem
  cases hfinalizes : call.point.finalizes? (instanceId call.coordinator) answer.live with
  | some ref =>
    have hnot : ¬call.point.Ends := RunCallPoint.not_ends_of_finalizes hfinalizes
    rw [nextOf.eq_def, hfinalizes]
    dsimp only
    cases hr : s.objects[ref]? with
    | none =>
      rw [finalizeRunCompletion.eq_def, hr]
      refine h.of_quiet (.of_eq rfl rfl id) fun call' hcall' hends => ?_
      exact .inl ((hcalls _ call' hcall' hends).resolve_right hnot)
    | some r =>
      obtain ⟨f, hf, status, failureReason, failureClass, hterminal, heq⟩ :=
        finalizeRunCompletion_eq (c := call.coordinator) hr
      obtain ⟨hspent, hlast⟩ := hlive.finalizes k answer rfl call hcall ref hfinalizes r hr
      rw [heq]
      refine h.finalize hr hlast hspent hf rfl rfl rfl
        (fun call' hcall' hends => (hcalls _ call' hcall' hends).resolve_right hnot) ?_
      exact ⟨_, mem_append_left _ (mem_append_right _ mem_cons_self), rfl, hterminal⟩
  | none =>
    by_cases hwrite : call.point.isFinalizeWrite
    · have hrow := (hlive.writes k call hcall hwrite).2 answer rfl
      rw [nextOf.eq_def, hfinalizes]
      revert hwrite hcalls
      cases call.point with
      | finalizeWrite status failureReason failureClass =>
        intro hcalls _
        refine h.of_quiet (.of_eq rfl rfl ?_) fun call' hcall' hends =>
          (hcalls _ call' hcall' hends).imp_right ?_
        · exact RunsDb.isOver_updateRuns ExecutionRun.finalizeUpdate_keepsFinished.keepsOver
        · exact fun hterminal => isOver_finalize hterminal hrow
      | _ =>
        intro _ hwrite
        cases hwrite
    · rw [not_eq_true] at hwrite
      have hnot : ¬call.point.Ends := RunCallPoint.not_ends_of_isFinalizeWrite hwrite
      have heffect : Effect runId s call.coordinator
          (s.nextOf texts instanceId runId call.coordinator call.kind answer call.point).1 :=
        effect_nextOf hfinalizes hwrite
      generalize s.nextOf texts instanceId runId call.coordinator call.kind answer call.point =
        next at heffect ⊢
      obtain ⟨t, point⟩ := next
      cases heffect with
      | quiet hquiet =>
        refine h.of_quiet ⟨hquiet.events, hquiet.coordinators, hquiet.spent, hquiet.isOver⟩
          fun call' hcall' hends => ?_
        exact .inl ((hcalls _ call' hcall' hends).resolve_right hnot)
      | addRun r hc =>
        refine (h.addRun (r := r)).of_quiet (.of_eq rfl rfl id) fun call' hcall' hends => ?_
        exact .inl ((hcalls _ call' hcall' hends).resolve_right hnot)
      | reopen hevents => exact h.of_reopen hevents

theorem Sound.step (h : s.Sound runId) (hlive : FinalizesLive instanceId runId s a)
    (hstep : s.step texts instanceId runId a = some t) : t.Sound runId := by
  cases a with
  | call | inlineCall =>
    cases hstep
    exact h.of_quiet (.of_eq rfl rfl id) fun call hcall _ => .inl (mem_append_left _ hcall)
  | onExecutionStarted c checkMode jobs =>
    rw [step] at hstep
    split at hstep
    · cases hstep
      refine h.of_quiet (quiet_modifyRun fun run hcompleted => ?_) fun _ hcall _ => .inl hcall
      exact completedAt_foldl_setJob jobs hcompleted
    · cases hstep
      exact h.addRun
  | insertRun row =>
    rw [step] at hstep
    split at hstep
    · cases hstep
      refine h.of_quiet (.of_eq rfl rfl fun hover => ?_) fun _ hcall _ => .inl hcall
      exact isOver_insertNew hover
    · cases hstep
  | writeRun statement =>
    cases hstep
    exact h.of_quiet (quiet_withDb (RunsDb.isOver_updateRuns (statement.keepsOver runId)))
      fun _ hcall _ => .inl hcall
  | writeJobs rows =>
    cases hstep
    exact h.of_quiet (quiet_withDb id) fun _ hcall _ => .inl hcall
  | edit c f =>
    obtain ⟨ref, -, rfl⟩ := map_eq_some_iff.1 hstep
    refine h.of_quiet (quiet_modifyRun fun run hcompleted => ?_) fun _ hcall _ => .inl hcall
    dsimp only
    rw [hcompleted, Bool.true_or]
  | prune c =>
    cases hstep
    exact h.of_quiet (.of_eq rfl rfl id) fun _ hcall _ => .inl hcall
  | next k answer =>
    rw [step] at hstep
    split at hstep
    · next call hcall =>
      split at hstep
      · cases hstep
      · cases hstep
        exact h.next hlive hcall
    · cases hstep
  | throws k =>
    obtain ⟨call, hcall, rfl⟩ := map_eq_some_iff.1 hstep
    refine h.of_quiet (.of_eq rfl rfl id) fun call' hcall' hends => .inl ?_
    refine (eq_or_mem_replaced hcall hcall').resolve_left fun heq => ?_
    -- The write of a run that is over does not fail.
    subst heq
    refine (hlive.writes k call' hcall (of_not_eq_false fun hwrite => ?_)).1 rfl
    exact RunCallPoint.not_ends_of_isFinalizeWrite hwrite hends

end ReportsState

variable {κ : Type} [DecidableEq κ] {texts : LowerTexts} {instanceId : κ → Option String}
  {runId : String}

/-- A call leaves the status of a job that is over, unless it registers a job in its place; and
between two times a coordinator finalizes the run it is reopened, if all runs are finalized live. -/
theorem statuses_kept_and_finalized_once :
    (∀ (s t : ReportsState κ) k answer call jobId status, s.calls[k]? = some call →
      s.step texts instanceId runId (.next k answer) = some t →
      (∀ jobs, call.kind ≠ .addJobsToRun jobs (some jobId)) →
      s.db.jobStatusOf runId jobId = some status →
      status ∈ TERMINAL_JOB_STATES → t.db.jobStatusOf runId jobId = some status) ∧
    ∀ s, (reportsSystem texts instanceId runId).Reachable (FinalizesLive instanceId runId) s →
      ∀ c before between after, s.events = before ++ .finalized c :: between ++ .finalized c :: after →
        .reopened ∈ between := by
  constructor
  · intro s t k answer call jobId status hcall hstep hkind hstatus hterminal
    rw [step, hcall] at hstep
    dsimp only at hstep
    split at hstep
    · cases hstep
    · cases hstep
      exact jobStatusOf_nextOf hstatus hterminal hkind
  · intro s h
    have hsound : s.Sound runId := h.invariant (fun s hs => ?_) fun s a t hs hlive hstep =>
      hs.step hlive hstep
    · exact hsound.once
    · obtain ⟨db, statusEpoch, rfl⟩ := hs
      exact ⟨fun c before between h => by simp at h, fun c before between after h => by simp at h⟩

/-- The test of `FinalizesLive`. -/
def finalizesLive (instanceId : κ → Option String) (runId : String) (s : ReportsState κ) :
    ReportsAction κ → Bool
  | .next k answer => (s.calls[k]?).all fun call =>
    ((call.point.finalizes? (instanceId call.coordinator) answer.live).all fun ref =>
      (s.objects[ref]?).all fun r =>
      !r.run.completedAt && !r.late && decide (s.coordinators[ref]? = some call.coordinator) &&
        decide (call.coordinator ∉ s.coordinators.drop (ref + 1))) &&
    (!call.point.isFinalizeWrite || (s.db.statusOf runId).isSome)
  | .throws k => (s.calls[k]?).all fun call => !call.point.isFinalizeWrite
  | _ => true

theorem finalizesLive_of_test (s : ReportsState κ) (a : ReportsAction κ)
    (h : finalizesLive instanceId runId s a) : FinalizesLive instanceId runId s a where
  finalizes := by
    rintro k answer rfl call hcall ref href r hr
    have hcall' := (and_eq_true_iff.1 ((all_eq_true _ _).1 h call hcall)).1
    have hr' := (all_eq_true _ _).1 ((all_eq_true _ _).1 hcall' ref href) r hr
    simp only [and_eq_true, not_eq_true', decide_eq_true_eq] at hr'
    obtain ⟨⟨⟨hcompleted, hlate⟩, hc⟩, hlast⟩ := hr'
    exact ⟨by simp [TrackedRun.Spent, hcompleted, hlate], hc, hlast⟩
  writes := by
    intro k call hcall hwrite
    constructor
    · rintro rfl
      have hnot := (all_eq_true _ _).1 h call hcall
      rw [hwrite] at hnot
      cases hnot
    · rintro answer rfl
      have hrow := (and_eq_true_iff.1 ((all_eq_true _ _).1 h call hcall)).2
      rwa [hwrite] at hrow

/-- A run fails, is reopened as a late job starts, and ends again. -/
theorem statuses_kept_and_finalized_once_reopened : ∃ s : ReportsState Unit,
    (reportsSystem ⟨id, id⟩ (fun _ => none) "run").Reachable (FinalizesLive (fun _ => none) "run") s ∧
      s.events = [.finalized ()] ++ [.reopened] ++ [.finalized ()] ∧
      RunEvent.reopened ∈ ([.reopened] : List (RunEvent Unit)) := by
  obtain ⟨s, hpath, hs⟩ : ∃ s : ReportsState Unit, (reportsSystem ⟨id, id⟩ (fun _ => none) "run").Path
      (FinalizesLive (fun _ => none) "run")
      { db := ⟨.singleton _ { runId := "run", status := .running }, .empty _⟩ } s ∧
      decide (s.events = [.finalized ()] ++ [.reopened] ++ [.finalized ()]) :=
    System.exists_path_of_run finalizesLive_of_test ([
      .onExecutionStarted () none [{ jobId := "test", name := "test" }],
      .call () (.onJobStatus "test" .failed)] ++
      .replicate 12 (.next 0 {}) ++ [
      .prune (),
      .call () (.onJobStatus "deploy" .running)] ++
      .replicate 11 (.next 0 {}) ++ [
      .call () (.onJobStatus "deploy" .success)] ++
      .replicate 12 (.next 0 {})) (by decide)
  have hevents := of_decide_eq_true hs
  have h : (reportsSystem ⟨id, id⟩ (fun _ => none) "run").Reachable
    (FinalizesLive (fun _ => none) "run") s :=
    ⟨_, ⟨_, 0, rfl⟩, hpath⟩
  exact ⟨s, h, hevents, statuses_kept_and_finalized_once.2 s h () [] [.reopened] [] hevents⟩

/-- A run in which a job fails inline while another one ends: both calls find the run complete, and
both finalize it. -/
theorem exists_finalized_twice : ∃ s : ReportsState Unit,
    (reportsSystem ⟨id, id⟩ (fun _ => none) "run").Reachable System.anyStep s ∧
      s.events = [.finalized (), .finalized ()] := by
  obtain ⟨s, hpath, hs⟩ := (reportsSystem ⟨id, id⟩ (fun _ => none) "run").exists_path
    { db := ⟨.singleton _ { runId := "run", status := .running }, .empty _⟩ }
      (fun s => s.events = [.finalized (), .finalized ()]) System.anyStep_of_true ([
      .onExecutionStarted () none
        [{ jobId := "lint", name := "lint" }, { jobId := "deploy", name := "deploy" }],
      .inlineCall () (.onJobStatus "deploy" .failed),
      .call () (.onJobStatus "lint" .success),
      .next 1 {}] ++
      -- Both reports are taken into memory, and then both calls wait for the rows.
      (replicate 4 [.next 0 {}, .next 1 {}]).flatten ++
      (replicate 2 [.next 0 {}, .next 1 {}]).flatten ++
      (replicate 4 [.next 0 {}, .next 1 {}]).flatten) (by decide)
  exact ⟨s, ⟨_, ⟨_, 0, rfl⟩, hpath⟩, hs⟩

end Kici
