import Kici.Needs.Scheduler

/-!
# One decision for each job

Any number of `evaluateDownstreams` run while jobs end. Each job is dispatched at most once,
and only when all its upstream jobs are over with statuses it admits; it is skipped only when
one of them is over with another status; and it is not both dispatched and skipped
(`evaluateDownstreams_exclusive`).

Jobs are found by their names. Where two rows of a run have one name, an edge to it can be
both met and not, and a job be dispatched and skipped (`exists_dispatched_and_skipped`). So the
result is for runs in which no two rows share a name that an edge names.
-/

namespace Kici

open List RunDb SchedulerReport Table

namespace SchedulerReport

/-- Whether `evaluateDownstreams` reports the job for dispatch. -/
def dispatches (jobName : JsString) : SchedulerReport → Bool
  | .evaluated result => result.jobName = jobName ∧ result.action = .dispatch
  | _ => false

/-- Whether `evaluateDownstreams` reports the job for skipping. -/
def skips (jobName : JsString) : SchedulerReport → Bool
  | .evaluated result => result.jobName = jobName ∧ result.action = .skip
  | _ => false

end SchedulerReport

namespace NeedsState

/-- The decisions about a job are what they should be. -/
structure DecidedOnce (s : NeedsState) (jobName : JsString) : Prop where
  once : (s.reports.filter fun r => r.dispatches jobName).length ≤ 1
  dispatched : (∃ r ∈ s.reports, r.dispatches jobName) → ∀ edge ∈ s.db.edgesOf jobName, s.db.Met edge
  skipped : (∃ r ∈ s.reports, r.skips jobName) → ∃ edge ∈ s.db.edgesOf jobName, s.db.Unmet edge
  exclusive : ¬((∃ r ∈ s.reports, r.dispatches jobName) ∧ ∃ r ∈ s.reports, r.skips jobName)

/-- Jobs end, and their downstream jobs are evaluated. -/
def Evaluates (_ : NeedsState) : NeedsAction → Prop
  | .writeStatus _ _ status => status ∈ TERMINAL_JOB_STATES
  | .evaluateDownstreams .. | .next _ => True
  | _ => False

/-- A new row does not take the name of another, if an edge names it. -/
def KeepsNames (s : NeedsState) : NeedsAction → Prop
  | .writeStatus jobId jobName _ => s.db.executionJobs.lookup jobId = none →
    (∃ edge ∈ s.db.executionJobNeeds, edge.jobName = jobName ∨ edge.upstreamName = jobName) →
      ∀ row ∈ s.db.executionJobs, row.jobName ≠ jobName
  | _ => True

/-! ## What is known of calls and reports -/

/-- The evaluation goes on with edges to a job that is over. -/
def EvaluatorOk (db : RunDb) : Checker → Prop
  | .evaluate completedJobName completedStatus _ edges =>
    (completedStatus ∈ TERMINAL_JOB_STATES ∧
      ∃ row ∈ db.executionJobs, row.jobName = completedJobName ∧ row.status = completedStatus) ∧
    ∀ edge ∈ edges, edge ∈ db.executionJobNeeds ∧ edge.upstreamName = completedJobName
  | _ => False

/-- What is known of a call: a job that is to be claimed may run. -/
def CallOk (db : RunDb) : SchedulerCall → Prop
  | .edges jobName checker => db.edgesOf jobName ≠ [] ∧ EvaluatorOk db checker
  | .statuses jobName edges checker =>
    db.edgesOf jobName ≠ [] ∧ edges = db.edgesOf jobName ∧ EvaluatorOk db checker
  | .claim jobName checker =>
    db.edgesOf jobName ≠ [] ∧ (∀ edge ∈ db.edgesOf jobName, db.Met edge) ∧ EvaluatorOk db checker
  | .resume checker => EvaluatorOk db checker

/-- What is known of a report: a job that is dispatched is claimed. -/
structure ReportOk (db : RunDb) (r : SchedulerReport) : Prop where
  dispatches : ∀ jobName, r.dispatches jobName → db.edgesOf jobName ≠ [] ∧
    (∃ row ∈ db.executionJobs, row.jobName = jobName) ∧ db.claimable jobName = false ∧
      ∀ edge ∈ db.edgesOf jobName, db.Met edge
  skips : ∀ jobName, r.skips jobName → ∃ edge ∈ db.edgesOf jobName, db.Unmet edge

/-- A step of the database: edges stay, and so do jobs that are over, and no job that an edge
names becomes claimable once it has a row. -/
structure DbStep (db db' : RunDb) : Prop where
  needs : db'.executionJobNeeds = db.executionJobNeeds
  kept : db.TerminalKept db'
  names : ∀ row ∈ db.executionJobs, ∃ row' ∈ db'.executionJobs, row'.jobName = row.jobName
  claimable : ∀ jobName, db.edgesOf jobName ≠ [] → (∃ row ∈ db.executionJobs, row.jobName = jobName) →
    db'.claimable jobName = true → db.claimable jobName = true
  unique : ∀ edge ∈ db.executionJobNeeds, db.UniqueName edge.upstreamName →
    db'.UniqueName edge.upstreamName

variable {db db' : RunDb} {s t : NeedsState} {jobName : JsString}

theorem DbStep.edgesOf (h : DbStep db db') (jobName : JsString) :
    db'.edgesOf jobName = db.edgesOf jobName := by
  rw [RunDb.edgesOf, RunDb.edgesOf, h.needs]

theorem DbStep.refl (db : RunDb) : DbStep db db :=
  ⟨rfl, .refl db, fun row hrow => ⟨row, hrow, rfl⟩, fun _ _ _ h => h, fun _ _ h => h⟩

theorem EvaluatorOk.mono {checker : Checker} (hok : EvaluatorOk db checker) (h : DbStep db db') :
    EvaluatorOk db' checker := by
  cases checker with
  | evaluate completedJobName completedStatus seenJobs edges =>
    obtain ⟨⟨hterminal, row, hrow, hname, hstatus⟩, hedges⟩ := hok
    obtain ⟨row', hrow', hname', hstatus'⟩ := h.kept row hrow (hstatus ▸ hterminal)
    refine ⟨⟨hterminal, row', hrow', hname'.trans hname, hstatus'.trans hstatus⟩, ?_⟩
    rw [h.needs]
    exact hedges
  | caller => exact hok
  | recompute => exact hok

theorem CallOk.mono {call : SchedulerCall} (hok : CallOk db call) (h : DbStep db db') :
    CallOk db' call := by
  cases call with
  | edges jobName checker =>
    rw [CallOk, h.edgesOf]
    exact ⟨hok.1, hok.2.mono h⟩
  | statuses jobName edges checker =>
    rw [CallOk, h.edgesOf]
    exact ⟨hok.1, hok.2.1, hok.2.2.mono h⟩
  | claim jobName checker =>
    rw [CallOk, h.edgesOf]
    exact ⟨hok.1, fun edge hedge => (hok.2.1 edge hedge).mono h.kept, hok.2.2.mono h⟩
  | resume checker => exact EvaluatorOk.mono hok h

theorem ReportOk.mono {r : SchedulerReport} (hok : ReportOk db r) (h : DbStep db db') :
    ReportOk db' r := by
  refine ⟨fun jobName hr => ?_, fun jobName hr => ?_⟩
  · obtain ⟨hedges, hrow, hclaimed, hmet⟩ := hok.dispatches jobName hr
    rw [h.edgesOf]
    refine ⟨hedges, ?_, ?_, fun edge hedge => (hmet edge hedge).mono h.kept⟩
    · obtain ⟨row, hrow, rfl⟩ := hrow
      exact h.names row hrow
    · rw [Bool.eq_false_iff]
      intro hfree
      rw [h.claimable jobName hedges hrow hfree] at hclaimed
      cases hclaimed
  · obtain ⟨edge, hedge, hunmet⟩ := hok.skips jobName hr
    rw [h.edgesOf]
    exact ⟨edge, hedge, hunmet.mono h.kept⟩

/-! ## Steps -/

/-- A claim is a step of the database. -/
theorem dbStep_claim : DbStep db (db.claim jobName) where
  needs := rfl
  kept := claim_terminalKept
  names row hrow := by
    refine ⟨_, mem_map_of_mem hrow, ?_⟩
    rw [Update.apply]
    split <;> rfl
  claimable name _ _ h := (claimable_claim h).1
  unique _ _ h := h.update fun _ => rfl

/-- So is the end of a job, if its row does not take a name. -/
theorem dbStep_writeStatus {jobId : String} {name : JsString} {status : ExecutionJobStatus}
    (hnames : s.KeepsNames (.writeStatus jobId name status)) :
    DbStep s.db (s.db.writeStatus jobId name status) where
  needs := writeStatus_needs
  kept := writeStatus_terminalKept
  names row hrow := by
    rw [writeStatus]
    split
    · refine ⟨_, mem_map_of_mem hrow, ?_⟩
      rw [Update.apply]
      split <;> rfl
    · exact ⟨row, (lookup_eq_some.1
        (lookup_insertNew (lookup_of_mem hrow) _)).1, rfl⟩
  claimable jobName hedges hrow hfree := by
    obtain ⟨row, hmem, hname, hfree⟩ := claimable_iff.1 hfree
    rcases mem_writeStatus hmem with ⟨r, hr, hrname, hrfree⟩ | ⟨hnone, rfl⟩
    · exact claimable_iff.2 ⟨r, hr, hrname.symm.trans hname, hrfree.symm.trans hfree⟩
    · -- The new row would take the name of the job.
      obtain ⟨edge, hedge⟩ := exists_mem_of_ne_nil _ hedges
      obtain ⟨hedge, hjob⟩ := mem_edgesOf.1 hedge
      obtain ⟨r, hr, hrname⟩ := hrow
      exact absurd (hrname.trans hname.symm)
        (hnames hnone ⟨edge, hedge, .inl (hjob.trans hname.symm)⟩ r hr)
  unique edge hedge h := h.writeStatus fun hnone heq => by
    subst heq
    exact hnames hnone ⟨edge, hedge, .inr rfl⟩

/-- What holds of a run of evaluations. -/
structure EvaluationOk (s : NeedsState) : Prop where
  names : ∀ edge ∈ s.db.executionJobNeeds, s.db.UniqueName edge.upstreamName
  calls : ∀ call ∈ s.calls, CallOk s.db call
  reports : ∀ r ∈ s.reports, ReportOk s.db r
  once : ∀ jobName, (s.reports.filter fun r => r.dispatches jobName).length ≤ 1

/-- A step of the database that reports nothing. -/
theorem EvaluationOk.idle (hs : s.EvaluationOk) (hdb : DbStep s.db t.db)
    (hcalls : ∀ call ∈ t.calls, call ∈ s.calls ∨ CallOk t.db call) (hreports : t.reports = s.reports) :
    t.EvaluationOk where
  names edge hedge := by
    rw [hdb.needs] at hedge
    exact hdb.unique edge hedge (hs.names edge hedge)
  calls call hcall := (hcalls call hcall).elim (fun h => (hs.calls call h).mono hdb) id
  reports r hr := (hs.reports r (hreports ▸ hr)).mono hdb
  once := by
    rw [hreports]
    exact hs.once

/-- A step of the database with a report, of a job not dispatched before. -/
theorem EvaluationOk.reported (hs : s.EvaluationOk) {r : SchedulerReport} (hdb : DbStep s.db t.db)
    (hcalls : t.calls = s.calls) (hreports : t.reports = s.reports ++ [r]) (hr : ReportOk t.db r)
    (hnew : ∀ jobName, r.dispatches jobName → s.db.claimable jobName) : t.EvaluationOk where
  names edge hedge := by
    rw [hdb.needs] at hedge
    exact hdb.unique edge hedge (hs.names edge hedge)
  calls call hcall := (hs.calls call (hcalls ▸ hcall)).mono hdb
  reports r' hr' := by
    rw [hreports] at hr'
    rcases mem_append.1 hr' with hr' | hr'
    · exact (hs.reports r' hr').mono hdb
    · rwa [mem_singleton.1 hr']
  once jobName := by
    rw [hreports, filter_append, length_append]
    by_cases hd : r.dispatches jobName
    · -- A job that was dispatched before is not claimable.
      have hbefore : s.reports.filter (fun r => r.dispatches jobName) = [] := by
        refine filter_eq_nil_iff.2 fun r' hr' hd' => ?_
        have hclaimed := ((hs.reports r' hr').dispatches jobName hd').2.2.1
        rw [hnew jobName hd] at hclaimed
        cases hclaimed
      rw [hbefore, length_nil, Nat.zero_add]
      exact length_filter_le (fun r : SchedulerReport => r.dispatches jobName) [r]
    · have hnone : [r].filter (fun r => r.dispatches jobName) = [] := by simp [hd]
      rw [hnone]
      exact hs.once jobName

/-- A check is no decision of an evaluation. -/
theorem reportOk_checked {check : NeedsCheck} : ReportOk db (.checked jobName check) := by
  refine ⟨fun _ h => ?_, fun _ h => ?_⟩ <;> cases h

/-- A job with an upstream job that it does not admit is skipped. -/
theorem reportOk_skip {reason : Option JsString} (h : ∃ edge ∈ db.edgesOf jobName, db.Unmet edge) :
    ReportOk db (.evaluated ⟨jobName, .skip, reason⟩) := by
  refine ⟨fun name hd => ?_, fun name hd => ?_⟩
  · simp [dispatches] at hd
  · simp only [skips, decide_eq_true_eq] at hd
    exact hd.1 ▸ h

/-- A job that is claimed is dispatched. -/
theorem reportOk_dispatch (hedges : db.edgesOf jobName ≠ [])
    (hmet : ∀ edge ∈ db.edgesOf jobName, db.Met edge) (hfree : db.claimable jobName) :
    ReportOk (db.claim jobName) (.evaluated ⟨jobName, .dispatch, none⟩) := by
  refine ⟨fun name hd => ?_, fun name hd => ?_⟩
  · simp only [dispatches, decide_eq_true_eq] at hd
    obtain rfl := hd.1
    obtain ⟨row, hrow, hname, -⟩ := claimable_iff.1 hfree
    refine ⟨hedges, ?_, ?_, fun edge hedge => (hmet edge hedge).mono claim_terminalKept⟩
    · obtain ⟨row', hrow', hname'⟩ := dbStep_claim.names row hrow
      exact ⟨row', hrow', hname'.trans hname⟩
    · exact Bool.eq_false_iff.2 fun h => (claimable_claim h).2 rfl
  · simp [skips] at hd

/-- The check of a job is done. -/
theorem onCheck_ok {check : NeedsCheck} {checker : Checker} (hs : s.EvaluationOk)
    (hchecker : EvaluatorOk s.db checker) (hedges : s.db.edgesOf jobName ≠ [])
    (hcheck : check = s.db.checkEdges (s.db.edgesOf jobName)) :
    (s.onCheck jobName check checker).1.EvaluationOk ∧
    (s.onCheck jobName check checker).1.calls = s.calls ∧
      ∀ c ∈ (s.onCheck jobName check checker).2, CallOk (s.onCheck jobName check checker).1.db c := by
  cases checker with
  | caller => cases hchecker
  | recompute => cases hchecker
  | evaluate completedJobName completedStatus seenJobs edges =>
    cases check with
    | waiting => exact ⟨hs, rfl, fun c hc => by cases hc; exact hchecker⟩
    | dispatch =>
      refine ⟨hs, rfl, fun c hc => ?_⟩
      cases hc
      exact ⟨hedges, met_of_checkEdges hcheck.symm, hchecker⟩
    | skip reason =>
      refine ⟨hs.reported (.refl _) rfl rfl (reportOk_skip (unmet_of_checkEdges hcheck.symm)) ?_,
        rfl, fun c hc => by cases hc; exact hchecker⟩
      exact fun name hd => by simp [dispatches] at hd

/-- A call executes its next statement. -/
theorem nextOf_ok {call : SchedulerCall} (hs : s.EvaluationOk) (hcall : CallOk s.db call) :
    (s.nextOf call).1.EvaluationOk ∧ (s.nextOf call).1.calls = s.calls ∧
      ∀ c ∈ (s.nextOf call).2, CallOk (s.nextOf call).1.db c := by
  cases call with
  | edges jobName checker =>
    refine ⟨hs, rfl, fun c hc => ?_⟩
    cases hc
    exact ⟨hcall.1, rfl, hcall.2⟩
  | statuses jobName edges checker =>
    obtain ⟨hedges, rfl, hchecker⟩ := hcall
    have hreported : (s.report
      (.checked jobName (s.db.checkEdges (s.db.edgesOf jobName)))).EvaluationOk :=
      hs.reported (.refl _) rfl rfl reportOk_checked fun _ h => by cases h
    exact onCheck_ok hreported hchecker hedges rfl
  | claim jobName checker =>
    cases checker with
    | caller => cases hcall.2.2
    | recompute => cases hcall.2.2
    | evaluate completedJobName completedStatus seenJobs edges =>
      obtain ⟨hedges, hmet, hchecker⟩ := hcall
      simp only [nextOf]
      split
      · next hfree =>
        refine ⟨hs.reported dbStep_claim rfl rfl (reportOk_dispatch hedges hmet hfree) fun name hd => ?_,
          rfl, fun c hc => by cases hc; exact hchecker.mono dbStep_claim⟩
        simp only [dispatches, decide_eq_true_eq] at hd
        exact hd.1 ▸ hfree
      · exact ⟨hs.idle dbStep_claim (fun _ h => .inl h) rfl, rfl,
          fun c hc => by cases hc; exact hchecker.mono dbStep_claim⟩
  | resume checker =>
    cases checker with
    | caller => cases hcall
    | recompute => cases hcall
    | evaluate completedJobName completedStatus seenJobs edges =>
      cases edges with
      | nil => exact ⟨hs, rfl, fun c hc => by cases hc⟩
      | cons edge edges =>
        obtain ⟨hcompleted, hedges⟩ := hcall
        have hrest : ∀ seenJobs, EvaluatorOk s.db
            (.evaluate completedJobName completedStatus seenJobs edges) :=
          fun _ => ⟨hcompleted, fun e he => hedges e (mem_cons_of_mem _ he)⟩
        obtain ⟨hedge, hup⟩ := hedges edge mem_cons_self
        have hmem : edge ∈ s.db.edgesOf edge.jobName := mem_edgesOf.2 ⟨hedge, rfl⟩
        simp only [nextOf]
        split
        · exact ⟨hs, rfl, fun c hc => by cases hc; exact hrest seenJobs⟩
        · split
          · refine ⟨hs, rfl, fun c hc => ?_⟩
            cases hc
            exact ⟨ne_nil_of_mem hmem, hrest _⟩
          · next hadmits =>
            -- The job that is over is the one the edge leads to.
            obtain ⟨hterminal, row, hrow, hname, hstatus⟩ := hcompleted
            have hunmet : s.db.Unmet edge := ⟨row, hrow, hname.trans hup.symm, hstatus ▸ hterminal,
              hstatus ▸ Bool.eq_false_iff.2 hadmits⟩
            refine ⟨hs.reported (.refl _) rfl rfl (reportOk_skip ⟨edge, hmem, hunmet⟩) ?_, rfl,
              fun c hc => by cases hc; exact hrest (edge.jobName :: seenJobs)⟩
            exact fun name hd => by simp [dispatches] at hd

theorem EvaluationOk.step {staticJobs : List LockJob} {a : NeedsAction} (hs : s.EvaluationOk)
    (heval : s.Evaluates a) (hnames : s.KeepsNames a) (h : s.step staticJobs a = some t) :
    t.EvaluationOk := by
  cases a with
  | writeStatus jobId name status =>
    cases h
    exact hs.idle (dbStep_writeStatus hnames) (fun _ h => .inl h) rfl
  | evaluateDownstreams completedJobName completedStatus =>
    simp only [NeedsState.step, Option.ite_none_right_eq_some, Option.some.injEq] at h
    obtain ⟨⟨hterminal, hrow⟩, rfl⟩ := h
    refine hs.idle (.refl _) (fun call hcall => ?_) rfl
    refine (mem_append.1 hcall).imp_right fun hcall => ?_
    obtain rfl := mem_singleton.1 hcall
    obtain ⟨row, hrow, hstatus⟩ := any_eq_true.1 hrow
    have hstatus := of_decide_eq_true hstatus
    exact ⟨⟨hterminal, row, hrow, hstatus.1, hstatus.2⟩, fun _ => mem_edgesTo.1⟩
  | next k =>
    simp only [NeedsState.step] at h
    split at h
    · next call hcall =>
      cases h
      obtain ⟨hok, hcalls, hrest⟩ := nextOf_ok hs (hs.calls call (mem_of_getElem? hcall))
      refine hok.idle (.refl _) (fun c hc => ?_) rfl
      simp only [mem_append, Option.mem_toList] at hc
      rw [hcalls]
      rcases hc with (hc | hc) | hc
      · exact .inl (mem_of_mem_take hc)
      · exact .inr (hrest c hc)
      · exact .inl (mem_of_mem_drop hc)
    · cases h
  | checkAllUpstreamsSatisfied | recomputeNeedsSatisfied | resolveGroupEdges => cases heval

end NeedsState

open NeedsState in
/-- However evaluations and the ends of jobs follow each other, each job is decided once, as it
should be, as long as no two rows share a name that an edge names. -/
theorem evaluateDownstreams_exclusive {staticJobs : List LockJob} {s t : NeedsState}
    (hcalls : s.calls = []) (hreports : s.reports = [])
    (hunique : ∀ edge ∈ s.db.executionJobNeeds, s.db.UniqueName edge.upstreamName)
    (h : (needsSystem staticJobs).Path (fun s a => s.Evaluates a ∧ s.KeepsNames a) s t)
    (jobName : JsString) : t.DecidedOnce jobName := by
  have hstart : s.EvaluationOk :=
    ⟨hunique, by simp [hcalls], by simp [hreports], by simp [hreports]⟩
  have hok : t.EvaluationOk :=
    h.invariant hstart fun _ _ _ hs hok hstep => hs.step hok.1 hok.2 hstep
  have hdispatched : (∃ r ∈ t.reports, r.dispatches jobName) →
      ∀ edge ∈ t.db.edgesOf jobName, t.db.Met edge :=
    fun ⟨r, hr, hd⟩ => ((hok.reports r hr).dispatches jobName hd).2.2.2
  have hskipped : (∃ r ∈ t.reports, r.skips jobName) →
      ∃ edge ∈ t.db.edgesOf jobName, t.db.Unmet edge :=
    fun ⟨r, hr, hd⟩ => (hok.reports r hr).skips jobName hd
  refine ⟨hok.once jobName, hdispatched, hskipped, fun ⟨hd, hsk⟩ => ?_⟩
  obtain ⟨edge, hedge, hunmet⟩ := hskipped hsk
  exact (hdispatched hd edge hedge).not_unmet (hok.names edge (mem_edgesOf.1 hedge).1) hunmet

/-! ## Running the system -/

/-- A job that is waiting. -/
def pendingJob (jobId : String) (jobName : JsString) : ExecutionJob where
  jobId
  jobName
  status := .pending

/-- `deploy` needs the job `build (linux)`, which has the rows given. -/
def deployNeeds (builds : List ExecutionJob) : NeedsState where
  db := {
    executionJobs := (builds ++ [pendingJob "d" "deploy"]).foldl insertNew (empty _)
    executionJobNeeds := (empty _).insertNew
      ⟨"deploy", "build (linux)", runOnJson SUCCESS_ONLY_RUN_ON⟩ }

/-- A test for steps of evaluations that insert no rows. -/
def evaluationTest (s : NeedsState) : NeedsAction → Bool
  | .writeStatus jobId _ status => status ∈ TERMINAL_JOB_STATES ∧ s.db.executionJobs.lookup jobId ≠ none
  | .evaluateDownstreams .. | .next _ => true
  | _ => false

theorem evaluates_of_test (s : NeedsState) (a : NeedsAction) (h : evaluationTest s a) :
    s.Evaluates a ∧ s.KeepsNames a := by
  cases a with
  | writeStatus jobId name status =>
    have h := of_decide_eq_true h
    exact ⟨h.1, fun hnone => absurd hnone h.2⟩
  | evaluateDownstreams | next => exact ⟨trivial, trivial⟩
  | checkAllUpstreamsSatisfied | recomputeNeedsSatisfied | resolveGroupEdges => cases h

/-- Two evaluations at the same time dispatch a job once. -/
theorem evaluateDownstreams_exclusive_twice : ∃ t : NeedsState,
    (t.reports.any fun r => r.dispatches "deploy") ∧ t.DecidedOnce "deploy" := by
  obtain ⟨t, hpath, ht⟩ := (needsSystem []).exists_path (deployNeeds [pendingJob "b" "build (linux)"])
      (fun t => t.reports.any fun r => r.dispatches "deploy") evaluates_of_test
      [.writeStatus "b" "build (linux)" .success, .evaluateDownstreams "build (linux)" .success,
        .evaluateDownstreams "build (linux)" .success, .next 0, .next 1, .next 0, .next 1, .next 0,
        .next 1, .next 0, .next 1]
      (by decide)
  exact ⟨t, ht, evaluateDownstreams_exclusive rfl rfl (by decide) hpath "deploy"⟩

/-- A run in which a job is dispatched and skipped: of two jobs of one name one succeeds, and
one fails. -/
theorem exists_dispatched_and_skipped : ¬∀ (staticJobs : List LockJob) (s t : NeedsState),
    s.calls = [] → s.reports = [] →
    (needsSystem staticJobs).Path (fun s a => s.Evaluates a) s t → ∀ jobName, t.DecidedOnce jobName := by
  intro h
  obtain ⟨t, hpath, ht⟩ :=
    (needsSystem []).exists_path
      (deployNeeds [pendingJob "b1" "build (linux)", pendingJob "b2" "build (linux)"])
      (fun t => (t.reports.any fun r => r.dispatches "deploy") && t.reports.any fun r =>
        r.skips "deploy")
    evaluates_of_test
      [.writeStatus "b1" "build (linux)" .failed, .writeStatus "b2" "build (linux)" .success,
        .evaluateDownstreams "build (linux)" .success, .next 0, .next 0, .next 0, .next 0,
        .evaluateDownstreams "build (linux)" .failed, .next 1]
      (by decide)
  rw [Bool.and_eq_true] at ht
  refine (h [] _ t rfl rfl (hpath.mono fun _ _ h => h.1) "deploy").exclusive ⟨?_, ?_⟩
  · exact any_eq_true.1 ht.1
  · exact any_eq_true.1 ht.2

end Kici
