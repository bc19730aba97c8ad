import Kici.Cluster.OrphanRecovery

/-!
# What a recovery may override

A recovery asks once whether a run makes progress, and does not ask again before it fails the jobs
and the run; and it reports a job as failed whether its update has found the row or not. So a job
that ends in between is reported as failed, and a run is failed of which a job has just had a
heartbeat (`exists_live_job_overridden`).

As long as an update finds the status that was read, and the jobs of a run that is recovered make no
progress meanwhile (`OrphanState.careful`), only what a recovery failed is reported, and only jobs
and runs without progress are failed (`recovery_spares_live_jobs`).
-/

namespace Kici.Orphans

open List Option OrphanState Table System

variable {status : ExecutionJobStatus} {runId' jobId : String}
variable {staleThresholdMs jobStuckThresholdMs : ℤ} {s t : OrphanState} {a : OrphanAction}
  {runId : String} {point : ScanPoint} {scan : Scan} {k : ℕ}

/-- What is reported as failed, a recovery has failed; and what a recovery fails made no progress. -/
structure SparesLiveJobs (staleThresholdMs jobStuckThresholdMs : ℤ) (s : OrphanState) : Prop where
  reports : ∀ report ∈ s.reports, report.moved = true
  fails : ∀ k flapGraceMs windowHeld t, s.careful (.scanStep k flapGraceMs windowHeld) = true →
    (orphanSystem staleThresholdMs jobStuckThresholdMs).step s
      (.scanStep k flapGraceMs windowHeld) = some t →
    ∀ runId, s.FailsIn t runId → s.Idle staleThresholdMs runId

/-! ## A run without progress -/

theorem signs_subset_stamps (job : JobRow) : ∀ sign ∈ job.signs, sign ∈ job.stamps := by
  intro sign hsign
  rw [JobRow.signs] at hsign
  rw [JobRow.stamps]
  split at hsign
  · simp only [append_nil, mem_append] at hsign ⊢
    rcases hsign with hheartbeat | hstart
    · exact .inl (.inl hheartbeat)
    · exact .inr hstart
  · exact hsign

theorem idle_of_not_hasRecentProgress {cutoff : ℤ} (hcutoff : cutoff ≤ s.now - staleThresholdMs)
    (hnone : s.hasRecentProgress cutoff runId = false) : s.Idle staleThresholdMs runId := by
  intro job hjob hrun sign hsign
  rw [hasRecentProgress, List.any_eq_false] at hnone
  have hjobs : job ∈ s.jobsOf runId := mem_filter.2 ⟨hjob, decide_eq_true hrun⟩
  have hold := hnone job hjobs
  rw [List.any_eq_true, not_exists] at hold
  have hsmall := hold sign
  simp only [decide_eq_true_eq, not_and, not_le] at hsmall
  exact lt_of_lt_of_le (hsmall (signs_subset_stamps job sign hsign)) hcutoff

/-- A job that a recovery fails makes no progress by it. -/
theorem idle_failStuckJob (hidle : s.Idle staleThresholdMs runId) (hnow : t.now = s.now)
    {now : ℤ} (hjobs : t.jobs = s.jobs.execute (failStuckJob runId' jobId status now)) :
    t.Idle staleThresholdMs runId := by
  rw [Idle, hjobs, hnow]
  refine forall_mem_execute hidle fun row _ _ hrow hrun sign hsign => hrow hrun sign ?_
  rw [JobRow.signs] at hsign ⊢
  simp only [failStuckJob, if_true, append_nil, mem_append] at hsign ⊢
  rcases hsign with hheartbeat | hstart
  · exact .inl (.inl hheartbeat)
  · exact .inr hstart

theorem idle_writeJob (hidle : s.Idle staleThresholdMs runId) {w : JobWrite}
    (hw : w.progresses = false ∨ runId' ≠ runId) (hnow : t.now = s.now)
    (hjobs : t.jobs = s.jobs.execute (writeJob runId' jobId w)) : t.Idle staleThresholdMs runId := by
  rw [Idle, hjobs, hnow]
  refine forall_mem_execute hidle fun row _ hguard hrow hrun sign hsign => hrow hrun sign ?_
  have hguard' : row.runId = runId' ∧ row.jobId = jobId := of_decide_eq_true hguard
  rcases hw with hnone | hne
  · rw [JobWrite.progresses, Bool.or_eq_false_iff, Bool.or_eq_false_iff] at hnone
    obtain ⟨⟨hheartbeat, hstart⟩, hcompleted⟩ := hnone
    rw [isSome_eq_false_iff, isNone_iff_eq_none] at hheartbeat hstart hcompleted
    rw [JobRow.signs] at hsign ⊢
    simpa [writeJob, hheartbeat, hstart, hcompleted] using hsign
  · exact absurd (hguard'.1.symm.trans hrun) hne

/-! ## A step of a scan -/

/-- What holds of a scan: the run that it recovers is idle, and what it reports it has moved. -/
def PointOk (staleThresholdMs : ℤ) (s : OrphanState) : ScanPoint → Prop
  | .checkingProgress cutoff _ => cutoff ≤ s.now - staleThresholdMs
  | .reporting h _ moved
  | .cancellingSteps h _ moved => s.Idle staleThresholdMs h.run.runId ∧ moved = true
  | .readingJobs h | .failingRun h | .nextJob h .. | .readingGrace h _ | .failingJob h _
  | .checkingWindow h | .memoryWrite h _ | .fallbackJobs h | .fallbackRun h _
  | .fallbackWrite h _ => s.Idle staleThresholdMs h.run.runId
  | .selecting _ | .nextRun _ | .ended => True

theorem PointOk.idle (h : PointOk staleThresholdMs s point)
    (hrecovers : point.recovers = some runId) : s.Idle staleThresholdMs runId := by
  cases point <;> cases hrecovers
  case reporting | cancellingSteps => exact h.1
  all_goals exact h

theorem PointOk.mono (h : PointOk staleThresholdMs s point) (hnow : s.now ≤ t.now)
    (hidle : ∀ runId, point.recovers = some runId → s.Idle staleThresholdMs runId →
      t.Idle staleThresholdMs runId) :
    PointOk staleThresholdMs t point := by
  cases point with
  | checkingProgress cutoff h' => exact le_trans h (Int.sub_le_sub_right hnow _)
  | reporting | cancellingSteps => exact ⟨hidle _ rfl h.1, h.2⟩
  | selecting | nextRun | ended => trivial
  | _ => exact hidle _ rfl h

/-- What a step of a scan does to the rows and the reports. -/
inductive ScanEffect (s : OrphanState) (point : ScanPoint) (t : OrphanState) : Prop
  | quiet : t.jobs = s.jobs → t.runs = s.runs → t.reports = s.reports → ScanEffect s point t
  | failsJob (h : RunInHand) (j : JobInHand) : point.recovers = some h.run.runId →
    t.jobs = s.jobs.execute (failStuckJob h.run.runId j.job.jobId j.job.status s.now) → t.runs = s.runs →
    t.reports = s.reports → ScanEffect s point t
  | reports (new : List Report) : (∀ report ∈ new, report.moved = true) → t.reports = s.reports ++ new →
    t.jobs = s.jobs → t.runs = s.runs → ScanEffect s point t
  | writesRun (runId : String) (u : Update RunRow.runId) : point.recovers = some runId →
    (∀ row, u.guard row = true → row.runId = runId) → t.runs = s.runs.execute u → t.jobs = s.jobs →
    t.reports = s.reports → ScanEffect s point t

/-- What a step of a scan does. -/
structure ScanSteps (staleThresholdMs : ℤ) (s : OrphanState) (k : ℕ) (scan : Scan) (t : OrphanState) :
    Prop where
  now : t.now = s.now
  effect : ScanEffect s scan.point t
  goes_on : ∃ point, t.scans = s.scans.set k { scan with point } ∧ PointOk staleThresholdMs s point

/-- A step that only goes on. -/
theorem ScanSteps.quiet (hstep : some (s.goOn k scan point) = some t)
    (hok : PointOk staleThresholdMs s point) : ScanSteps staleThresholdMs s k scan t := by
  rw [← some.inj hstep]
  exact ⟨rfl, .quiet rfl rfl rfl, point, rfl, hok⟩

theorem scanStep_steps {flapGraceMs : ℤ} {windowHeld : Bool} (hscan : s.scans[k]? = some scan)
    (hok : PointOk staleThresholdMs s scan.point)
    (hcareful : s.careful (.scanStep k flapGraceMs windowHeld))
    (hstep : s.scanStep staleThresholdMs jobStuckThresholdMs k scan flapGraceMs windowHeld = some t) :
    ScanSteps staleThresholdMs s k scan t := by
  obtain ⟨node, point⟩ := scan
  rw [scanStep] at hstep
  cases point with
  | selecting staleThreshold => exact .quiet hstep trivial
  | nextRun runs =>
    cases runs with
    | nil => exact .quiet hstep trivial
    | cons run rest =>
      dsimp only at hstep
      split at hstep
      · exact .quiet hstep trivial
      · exact .quiet hstep (le_refl _)
  | checkingProgress cutoff h =>
    dsimp only at hstep
    split at hstep
    · exact .quiet hstep trivial
    next hnone =>
      exact .quiet hstep (idle_of_not_hasRecentProgress hok (Bool.eq_false_iff.2 hnone))
  | readingJobs h =>
    dsimp only at hstep
    split at hstep
    · exact .quiet hstep hok
    · exact .quiet hstep hok
  | failingRun h =>
    cases hstep
    refine ⟨rfl, .writesRun h.run.runId _ rfl (fun row hguard => ?_) rfl rfl rfl, _, rfl, trivial⟩
    exact (of_decide_eq_true hguard).1
  | nextJob h stuckThreshold jobs =>
    cases jobs with
    | nil =>
      dsimp only at hstep
      exact .quiet hstep hok
    | cons job rest =>
      dsimp only at hstep
      split at hstep
      · exact .quiet hstep hok
      · exact .quiet hstep hok
  | readingGrace h j =>
    dsimp only at hstep
    split at hstep
    · exact .quiet hstep hok
    · split at hstep
      · exact .quiet hstep hok
      · exact .quiet hstep hok
  | failingJob h j =>
    have ht := some.inj hstep
    -- The row has the status that was read, so the update moves it.
    have hmoved : s.jobs.rows.any (failStuckJob h.run.runId j.job.jobId j.job.status s.now).guard := by
      rw [careful, hscan, all_some] at hcareful
      obtain ⟨row, hrow, hstatus⟩ := (Option.any_eq_true _ _).1 hcareful
      obtain ⟨hmem, hkey⟩ := lookup_eq_some.1 hrow
      obtain ⟨hrun, hjob⟩ := Prod.mk.inj hkey
      exact any_eq_true.2 ⟨row, hmem, decide_eq_true ⟨hrun, hjob, of_decide_eq_true hstatus⟩⟩
    rw [← ht]
    exact ⟨rfl, .failsJob h j rfl rfl rfl rfl, _, rfl, hok, hmoved⟩
  | reporting h j moved =>
    have ht := some.inj hstep
    rw [← ht]
    refine ⟨rfl, .reports _ (fun report hreport => ?_) rfl rfl rfl, _, rfl, hok⟩
    rcases mem_cons.1 hreport with rfl | hreport
    · exact hok.2
    · obtain rfl := mem_singleton.1 hreport
      exact hok.2
  | cancellingSteps h j moved =>
    have ht := some.inj hstep
    rw [← ht]
    refine ⟨rfl, .reports _ (fun report hreport => ?_) rfl rfl rfl, _, rfl, hok.1⟩
    obtain rfl := mem_singleton.1 hreport
    exact hok.2
  | checkingWindow h =>
    dsimp only at hstep
    split at hstep
    · exact .quiet hstep trivial
    · split at hstep
      · split at hstep
        · exact .quiet hstep hok
        · exact .quiet hstep hok
      · exact .quiet hstep hok
  | memoryWrite h status =>
    cases hstep
    refine ⟨rfl, .writesRun h.run.runId _ rfl (fun row hguard => ?_) rfl rfl rfl, _, rfl, trivial⟩
    exact (of_decide_eq_true hguard).1
  | fallbackJobs | fallbackRun =>
    dsimp only at hstep
    split at hstep
    · exact .quiet hstep hok
    · exact .quiet hstep trivial
  | fallbackWrite h status =>
    cases hstep
    refine ⟨rfl, .writesRun h.run.runId _ rfl (fun row hguard => ?_) rfl rfl rfl, _, rfl, trivial⟩
    exact (of_decide_eq_true hguard).1
  | ended => cases hstep

/-! ## What holds in every run -/

structure Sound (staleThresholdMs : ℤ) (s : OrphanState) : Prop where
  points : ∀ scan ∈ s.scans, PointOk staleThresholdMs s scan.point
  reports : ∀ report ∈ s.reports, report.moved = true

/-- A step of another coordinator keeps what it keeps of the runs that are recovered. -/
theorem Sound.of_others (h : Sound staleThresholdMs s) (hscans : t.scans = s.scans)
    (hreports : t.reports = s.reports) (hnow : s.now ≤ t.now)
    (hidle : ∀ runId, s.notRecovered runId = false → s.Idle staleThresholdMs runId →
      t.Idle staleThresholdMs runId) :
    Sound staleThresholdMs t := by
  refine ⟨fun scan hscan => ?_, hreports ▸ h.reports⟩
  rw [hscans] at hscan
  refine (h.points scan hscan).mono hnow fun runId hrecovers => hidle runId ?_
  refine Bool.eq_false_iff.2 fun hnone => ?_
  exact of_decide_eq_true (all_eq_true.1 hnone scan hscan) hrecovers

theorem Sound.set (h : Sound staleThresholdMs s) (hnow : t.now = s.now)
    (hscans : t.scans = s.scans.set k { scan with point }) (hok : PointOk staleThresholdMs s point)
    (hidle : ∀ runId, s.Idle staleThresholdMs runId → t.Idle staleThresholdMs runId)
    (hreports : ∀ report ∈ t.reports, report.moved) : Sound staleThresholdMs t := by
  refine ⟨fun scan' hscan' => ?_, hreports⟩
  rw [hscans] at hscan'
  have hok' : PointOk staleThresholdMs s scan'.point := by
    rcases mem_or_eq_of_mem_set hscan' with hold | rfl
    · exact h.points scan' hold
    · exact hok
  exact hok'.mono (le_of_eq hnow.symm) fun runId _ => hidle runId

theorem idle_congr (hjobs : t.jobs = s.jobs) (hnow : t.now = s.now) :
    s.Idle staleThresholdMs runId → t.Idle staleThresholdMs runId := by
  intro h
  rw [Idle, hjobs, hnow]
  exact h

theorem Sound.scanStep (h : Sound staleThresholdMs s)
    (hsteps : ScanSteps staleThresholdMs s k scan t) : Sound staleThresholdMs t := by
  obtain ⟨hnow, heffect, point, hscans, hok⟩ := hsteps
  cases heffect with
  | quiet hjobs hruns hreports =>
    exact h.set hnow hscans hok (fun _ => idle_congr hjobs hnow) (hreports ▸ h.reports)
  | failsJob h' j hrecovers hjobs hruns hreports =>
    exact h.set hnow hscans hok (fun _ hidle => idle_failStuckJob hidle hnow hjobs)
      (hreports ▸ h.reports)
  | reports new hnew hreports hjobs hruns =>
    refine h.set hnow hscans hok (fun _ => idle_congr hjobs hnow) fun report hreport => ?_
    rw [hreports] at hreport
    rcases mem_append.1 hreport with hold | hin
    · exact h.reports report hold
    · exact hnew report hin
  | writesRun runId u hrecovers hguard hruns hjobs hreports =>
    exact h.set hnow hscans hok (fun _ => idle_congr hjobs hnow) (hreports ▸ h.reports)

theorem Sound.step (h : Sound staleThresholdMs s) (hcareful : s.careful a)
    (hstep : (orphanSystem staleThresholdMs jobStuckThresholdMs).step s a = some t) :
    Sound staleThresholdMs t := by
  cases a with
  | beginScan node isLeader =>
    cases isLeader with
    | false =>
      cases hstep
      exact h
    | true =>
      cases hstep
      refine ⟨fun scan hscan => ?_, h.reports⟩
      rcases mem_append.1 hscan with hold | hnew
      · exact (h.points scan hold).mono (le_refl _) fun _ _ => idle_congr rfl rfl
      · obtain rfl := mem_singleton.1 hnew
        trivial
  | scanStep k flapGraceMs windowHeld =>
    obtain ⟨scan, hscan, hnext⟩ := bind_eq_some_iff.1 hstep
    exact h.scanStep (scanStep_steps hscan (h.points scan (mem_of_getElem? hscan)) hcareful hnext)
  | scanThrows k =>
    obtain ⟨scan, hscan, ht⟩ := map_eq_some_iff.1 hstep
    have hsteps : ScanSteps staleThresholdMs s k scan t := .quiet (congrArg some ht) trivial
    exact h.scanStep hsteps
  | tick now =>
    obtain ⟨hle, ht⟩ := ite_none_right_eq_some.1 hstep
    cases ht
    refine h.of_others rfl rfl hle fun runId _ hidle job hjob hrun sign hsign => ?_
    exact lt_of_lt_of_le (hidle job hjob hrun sign hsign) (Int.sub_le_sub_right hle _)
  | setPeers | setMemory | insertRun | writeRun =>
    cases hstep
    exact h.of_others rfl rfl (le_refl _) fun _ _ => idle_congr rfl rfl
  | insertJob row =>
    cases hstep
    refine h.of_others rfl rfl (le_refl _) fun runId hrecovered hidle job hjob hrun sign hsign => ?_
    rcases mem_insertNew hjob with hold | rfl
    · exact hidle job hold hrun sign hsign
    · -- The run is recovered, so the new row has no stamps.
      rw [careful, hrun, hrecovered, Bool.or_false, List.isEmpty_iff] at hcareful
      have hstamp := signs_subset_stamps job sign hsign
      rw [hcareful] at hstamp
      cases hstamp
  | writeJob runId jobId w =>
    cases hstep
    refine h.of_others rfl rfl (le_refl _) fun runId' hrecovered hidle => idle_writeJob hidle ?_ rfl rfl
    by_cases hrun : runId = runId'
    · rw [careful, hrun, hrecovered, Bool.or_false, Bool.not_eq_true'] at hcareful
      exact .inl hcareful
    · exact .inr hrun
  | deleteJob runId jobId =>
    cases hstep
    refine h.of_others rfl rfl (le_refl _) fun runId' _ hidle job hjob => hidle job (mem_delete.1 hjob).1

/-! ## The results -/

/-- An update of the rows of another run leaves the status of a run. -/
theorem lookup_execute_of_other {runs : Table RunRow.runId} {u : Update RunRow.runId} {runId' : String}
    (hguard : ∀ row, u.guard row → row.runId = runId') (hne : runId ≠ runId') :
    (runs.execute u).lookup runId = runs.lookup runId := by
  rw [lookup_execute]
  cases hrow : runs.lookup runId with
  | none => rfl
  | some row =>
    have hid : row.runId = runId := (lookup_eq_some.1 hrow).2
    refine congrArg some (Update.apply_of_not_guard (Bool.eq_false_iff.2 fun h => ?_))
    exact hne (hid.symm.trans (hguard row h))

theorem lookup_failStuckJob_of_other {jobs : Table JobRow.key} {runId' jobId jobId' : String}
    {now : ℤ} (hne : runId ≠ runId') :
    (jobs.execute (failStuckJob runId' jobId' status now)).lookup (runId, jobId) = jobs.lookup
    (runId, jobId) := by
  rw [lookup_execute]
  cases hrow : jobs.lookup (runId, jobId) with
  | none => rfl
  | some row =>
    have hkey : (row.runId, row.jobId) = (runId, jobId) := (lookup_eq_some.1 hrow).2
    refine congrArg some (Update.apply_of_not_guard (Bool.eq_false_iff.2 fun h => ?_))
    have hguard : row.runId = runId' ∧ row.jobId = jobId' ∧ row.status = status := of_decide_eq_true h
    exact hne ((Prod.mk.inj hkey).1.symm.trans hguard.1)

/-- Only the run in hand, and its jobs, are failed. -/
theorem ScanEffect.recovers (heffect : ScanEffect s point t) (hfails : s.FailsIn t runId) :
    point.recovers = some runId := by
  cases heffect with
  | quiet hjobs hruns hreports =>
    rw [FailsIn, hjobs, hruns] at hfails
    rcases hfails with ⟨jobId, hfailed, hnot⟩ | ⟨hfailed, hnot⟩
    · exact absurd hfailed hnot
    · exact absurd hfailed hnot
  | reports new hnew hreports hjobs hruns =>
    rw [FailsIn, hjobs, hruns] at hfails
    rcases hfails with ⟨jobId, hfailed, hnot⟩ | ⟨hfailed, hnot⟩
    · exact absurd hfailed hnot
    · exact absurd hfailed hnot
  | failsJob h j hrecovers hjobs hruns hreports =>
    by_cases hrun : runId = h.run.runId
    · rw [hrun]
      exact hrecovers
    · rw [FailsIn, hjobs, hruns] at hfails
      rcases hfails with ⟨jobId, hfailed, hnot⟩ | ⟨hfailed, hnot⟩
      · rw [lookup_failStuckJob_of_other hrun] at hfailed
        exact absurd hfailed hnot
      · exact absurd hfailed hnot
  | writesRun runId' u hrecovers hguard hruns hjobs hreports =>
    by_cases hrun : runId = runId'
    · rw [hrun]
      exact hrecovers
    · rw [FailsIn, hjobs, hruns] at hfails
      rcases hfails with ⟨jobId, hfailed, hnot⟩ | ⟨hfailed, hnot⟩
      · exact absurd hfailed hnot
      · rw [lookup_execute_of_other hguard hrun] at hfailed
        exact absurd hfailed hnot

/-- As long as an update of a recovery finds the status that was read, and the jobs of a run make no
progress while it is recovered, a recovery spares live jobs. -/
theorem recovery_spares_live_jobs
    (h : (orphanSystem staleThresholdMs jobStuckThresholdMs).Reachable (fun s a => s.careful a) s) :
    SparesLiveJobs staleThresholdMs jobStuckThresholdMs s := by
  have hsound : Sound staleThresholdMs s := by
    refine h.invariant (fun s hinit => ⟨fun scan hscan => ?_, fun report hreport => ?_⟩)
      fun s a t hs hcareful hstep => hs.step hcareful hstep
    · rw [hinit.1] at hscan
      cases hscan
    · rw [hinit.2] at hreport
      cases hreport
  refine ⟨hsound.reports, fun k flapGraceMs windowHeld t hcareful hstep runId hfails => ?_⟩
  obtain ⟨scan, hscan, hnext⟩ := bind_eq_some_iff.1 hstep
  have hok := hsound.points scan (mem_of_getElem? hscan)
  exact hok.idle ((scanStep_steps hscan hok hcareful hnext).effect.recovers hfails)

/-! ### A run with one job -/

/-- A run that has been running for ten minutes, with a job that had a heartbeat at the start. -/
def oneStuckJob : OrphanState where
  runs := .singleton _ ⟨"run-1", some "github:acme", .running, 0, none, none⟩
  jobs := .singleton _ { runId := "run-1", jobId := "job-1", jobName := js "build", status := .running,
                         lastHeartbeatAt := some 0 }
  now := 600000
  peers _ := []
  memory _ _ := none

/-- Steps of the one scan. -/
def scanSteps (n : ℕ) : List OrphanAction := replicate n (.scanStep 0 120000 false)

/-- Stale after five minutes, stuck after three. -/
abbrev minutesSystem : System OrphanState OrphanAction := orphanSystem 300000 180000

theorem oneStuckJob_mem_init : oneStuckJob ∈ minutesSystem.init := ⟨rfl, rfl⟩

/-- The job and the run are failed, and reported. -/
theorem recovery_spares_live_jobs_stuck : ∃ s, s.reports.length = 3 ∧
    (s.runs.lookup "run-1").map (·.status) = some .failed ∧ SparesLiveJobs 300000 180000 s := by
  have hrun : (minutesSystem.run careful oneStuckJob (.beginScan 0 true :: scanSteps 14)).any
      (fun s => decide (s.reports.length = 3 ∧
        (s.runs.lookup "run-1").map (·.status) = some .failed)) := by
    decide
  obtain ⟨s, hpath, hs⟩ := exists_path_of_run (fun _ _ h => h) _ hrun
  obtain ⟨hreports, hfailed⟩ := of_decide_eq_true hs
  exact ⟨s, hreports, hfailed, recovery_spares_live_jobs ⟨oneStuckJob, oneStuckJob_mem_init, hpath⟩⟩

/-- The job succeeds when the scan has read it, and is reported as failed; or it has a heartbeat
then, and is failed all the same. -/
theorem exists_live_job_overridden :
    (∃ s, minutesSystem.Reachable anyStep s ∧ (∃ report ∈ s.reports, report.moved = false) ∧
      (s.jobs.lookup ("run-1", "job-1")).map (·.status) = some .success) ∧
    ∃ s t, minutesSystem.Reachable anyStep s ∧
      minutesSystem.step s (.scanStep 0 120000 false) = some t ∧ s.FailsIn t "run-1" ∧
      ¬ s.Idle 300000 "run-1" := by
  constructor
  · have hrun : (minutesSystem.run (fun _ _ => true) oneStuckJob (.beginScan 0 true :: scanSteps 4 ++
        .writeJob "run-1" "job-1" { status := .success, completedAt := some 600000 } :: scanSteps 4)).any
          (fun s => s.reports.any (fun report => !report.moved) &&
            decide ((s.jobs.lookup ("run-1", "job-1")).map (·.status) = some .success)) := by decide
    obtain ⟨s, hpath, hs⟩ := exists_path_of_run anyStep_of_true _ hrun
    obtain ⟨hreport, hsuccess⟩ := Bool.and_eq_true_iff.1 hs
    obtain ⟨report, hmem, hmoved⟩ := any_eq_true.1 hreport
    exact ⟨s, ⟨oneStuckJob, oneStuckJob_mem_init, hpath⟩,
      ⟨report, hmem, (Bool.not_eq_eq_eq_not.mp hmoved)⟩, of_decide_eq_true hsuccess⟩
  · have hrun : (minutesSystem.run (fun _ _ => true) oneStuckJob (.beginScan 0 true :: scanSteps 4 ++
        .writeJob "run-1" "job-1" { status := .running, lastHeartbeatAt := some 600000 } ::
          scanSteps 2)).any
          (fun s => decide (s.now = 600000) &&
            s.jobs.rows.any (fun job => job.runId = "run-1" ∧ job.lastHeartbeatAt = some 600000) &&
            (minutesSystem.step s (.scanStep 0 120000 false)).any fun t =>
              decide ((t.jobs.lookup ("run-1", "job-1")).map (·.status) = some .failed ∧
                (s.jobs.lookup ("run-1", "job-1")).map (·.status) ≠ some .failed)) := by decide
    obtain ⟨s, hpath, hs⟩ := exists_path_of_run anyStep_of_true _ hrun
    obtain ⟨hlive, hfails⟩ := Bool.and_eq_true_iff.1 hs
    obtain ⟨hnow, hjob⟩ := Bool.and_eq_true_iff.1 hlive
    obtain ⟨t, hstep, hfailed⟩ := (Option.any_eq_true _ _).1 hfails
    refine ⟨s, t, ⟨oneStuckJob, oneStuckJob_mem_init, hpath⟩, hstep,
      .inl ⟨"job-1", of_decide_eq_true hfailed⟩, fun hidle => ?_⟩
    obtain ⟨job, hmem, hbeat⟩ := any_eq_true.1 hjob
    obtain ⟨hrun, hheartbeat⟩ := of_decide_eq_true hbeat
    have hsign : (600000 : ℤ) ∈ job.signs := by
      rw [JobRow.signs, hheartbeat]
      exact mem_append_left _ (mem_append_left _ (mem_singleton_self _))
    have hold := hidle job hmem hrun 600000 hsign
    rw [of_decide_eq_true hnow] at hold
    exact absurd hold (by decide)

end Kici.Orphans
