import Kici.Agent.Matching
import Kici.Worker.QueueTwinsLaw

/-!
# Jobs put into and taken out of the two queues

The calls that do not search (`Twin.inserted`, `Twin.markFailed`, `Twin.markCompleted`,
`Twin.requeue`, `Twin.listPending`, `Twin.getDepth`), and every run of both queues (`twins_agree`).
-/

namespace Kici.Worker

open List JobQueue Bool DispatchRow JobQueue System Table Update

variable {u : DispatchUpdate} {worker worker' : InMemoryJobQueue}
variable {js : JsRuntime} {db : Db} {now : ℕ} {s t : TwinState} {order : OrderBy createdAt}
  {row : DispatchRow} {jobId : String}

/-- The rows after an update are those before, each as the update leaves it. -/
theorem mem_update {r' : DispatchRow} :
    r' ∈ (db.update u).dispatchQueue ↔ ∃ r ∈ db.dispatchQueue, u.apply r = r' := mem_map

theorem row?_update_eq_none : (db.update u).row? jobId = none ↔ db.row? jobId = none := by
  rw [Db.row?, Db.update, lookup_execute, Option.map_eq_none_iff]
  exact Iff.rfl

theorem row?_ne_none (hrow : row ∈ db.dispatchQueue) : db.row? row.id ≠ none := by
  rw [Db.row?, lookup_of_mem hrow]
  exact Option.some_ne_none row

/-- What is kept of the counts, once that of one job is dropped. -/
theorem attemptsOf_delete
    (hattempts : worker'.attempts = worker.attempts.delete jobId) (id : String) :
    worker'.attemptsOf id = if id = jobId then 0 else worker.attemptsOf id := by
  rw [InMemoryJobQueue.attemptsOf, hattempts, lookup_delete]
  split
  · rfl
  · rfl

theorem attemptsOf_put {count : ℕ}
    (hattempts : worker'.attempts = worker.attempts.put (jobId, count)) (id : String) :
    worker'.attemptsOf id = if id = jobId then count else worker.attemptsOf id := by
  rw [InMemoryJobQueue.attemptsOf, hattempts, lookup_put]
  split
  · rfl
  · rfl

namespace Twin

section

variable (h : Twin js s)
include h

/-- A job with no row is unknown to the worker. -/
theorem not_mem_jobs {jobId : String} (hnone : s.coord.db.row? jobId = none) :
    ∀ job ∈ s.worker.jobs, job.id ≠ jobId := by
  rintro job hjob rfl
  obtain ⟨row, hrow, -, rfl⟩ := h.row_of_mem hjob
  exact row?_ne_none hrow hnone

/-- A job that an agent has does not wait. -/
theorem not_mem_jobs_of_dispatched {job : QueuedJob} (hjob : job ∈ s.worker.dispatched) :
    ∀ waiting ∈ s.worker.jobs, waiting.id ≠ job.id := by
  intro waiting hwaiting heq
  obtain ⟨r, hr, hdispatched, rfl⟩ := h.dispatched job hjob
  obtain ⟨r', hr', hpending, rfl⟩ := h.row_of_mem hwaiting
  rw [row_eq hr' hr heq, hdispatched] at hpending
  cases hpending

/-- A new row: either the job waits at the worker from now on, or it is dispatched and the worker
knows nothing of it. -/
theorem inserted (row : DispatchRow) (hnow : s.now < t.now) (hfresh : s.coord.db.row? row.id = none)
    (hcreated : row.createdAt = t.now) (hexp : row.expiresAt = none)
    (hlabels : js.canonicalizeLabels row.runsOnLabels = row.runsOnLabels)
    (hexclude : js.canonicalizeLabels row.excludeLabels = row.excludeLabels)
    (hcount : row.dispatchAttempts = 0) (hworker : row.status = .pending ∧
        t.worker = { s.worker with jobs := s.worker.jobs.put (rowToQueuedJob js row) } ∨
      row.status = .dispatched ∧ t.worker = s.worker)
    (hdb : t.coord.db = s.coord.db.insert row) (hqueue : t.coord.queue = s.coord.queue)
    (hcache : ∀ cached, t.coord.depthCache = some cached → cached.1 ≤ 10)
    (hmax : t.coord.maxDepth = s.coord.maxDepth)
    (hfew : t.coord.pending.length ≤ 10) (hagree : t.Agree) : Twin js t := by
  have hmem : ∀ r, r ∈ t.coord.db.dispatchQueue ↔ r ∈ s.coord.db.dispatchQueue ∨ r = row := by
    intro r
    rw [hdb]
    exact mem_insertNew_iff hfresh
  have hnew : ∀ job ∈ s.worker.jobs, job.id ≠ (rowToQueuedJob js row).id := h.not_mem_jobs hfresh
  have hattempts : ∀ jobId, t.worker.attemptsOf jobId = s.worker.attemptsOf jobId := by
    rcases hworker with ⟨-, hworker⟩ | ⟨-, hworker⟩ <;> rw [hworker] <;> exact fun _ => rfl
  have hdispatched : t.worker.dispatched = s.worker.dispatched := by
    rcases hworker with ⟨-, hworker⟩ | ⟨-, hworker⟩ <;> rw [hworker]
  refine ⟨?_, fun job => ?_, ?_, fun job hjob => ?_, fun r hr hor => ?_, fun jobId hnone => ?_, ?_,
    hqueue ▸ h.deferred, hfew, hcache, hmax ▸ h.maxDepth, hagree⟩
  · rw [hdb]
    exact h.rows.insert hnow hcreated hexp hlabels hexclude
  · constructor
    · intro hjob
      have hold : job ∈ s.worker.jobs ∨ row.status = .pending ∧ job = rowToQueuedJob js row := by
        rcases hworker with ⟨hpending, hworker⟩ | ⟨-, hworker⟩
        · rw [hworker] at hjob
          rcases mem_put.1 hjob with rfl | ⟨hjob, -⟩
          · exact .inr ⟨hpending, rfl⟩
          · exact .inl hjob
        · rw [hworker] at hjob
          exact .inl hjob
      rcases hold with hjob | ⟨hpending, rfl⟩
      · obtain ⟨r, hr, hpending, rfl⟩ := h.row_of_mem hjob
        exact ⟨r, (hmem r).2 (.inl hr), hpending, rfl⟩
      · exact ⟨row, (hmem row).2 (.inr rfl), hpending, rfl⟩
    · rintro ⟨r, hr, hpending, rfl⟩
      rcases hworker with ⟨-, hworker⟩ | ⟨hnot, hworker⟩ <;> rw [hworker] <;> rcases
        (hmem r).1 hr with hr | rfl
      · exact mem_put.2 (.inr ⟨h.mem_jobs hr hpending, hnew _ (h.mem_jobs hr hpending)⟩)
      · exact mem_put.2 (.inl rfl)
      · exact h.mem_jobs hr hpending
      · rw [hnot] at hpending
        cases hpending
  · rcases hworker with ⟨-, hworker⟩ | ⟨-, hworker⟩
    · -- The job is younger than all that wait.
      rw [hworker, rows_put_of_fresh hnew, pairwise_append]
      refine ⟨h.oldest, pairwise_singleton _ _, fun job hjob job' hjob' => ?_⟩
      rw [mem_singleton.1 hjob']
      obtain ⟨r, hr, -, rfl⟩ := h.row_of_mem hjob
      calc r.createdAt ≤ s.now := h.rows.createdAt_le r hr
        _ < t.now := hnow
        _ = row.createdAt := hcreated.symm
    · rw [hworker]
      exact h.oldest
  · rw [hdispatched] at hjob
    obtain ⟨r, hr, hstatus, rfl⟩ := h.dispatched job hjob
    exact ⟨r, (hmem r).2 (.inl hr), hstatus, rfl⟩
  · rw [hattempts]
    rw [hdispatched] at hor
    rcases (hmem r).1 hr with hr | rfl
    · exact h.attempts r hr hor
    · rw [h.attempts_none r.id hfresh, hcount]
  · rw [hattempts]
    refine h.attempts_none jobId (Option.eq_none_iff_forall_ne_some.2 fun r hr => ?_)
    rw [hdb, Db.row?, Db.insert, lookup_insertNew hr row] at hnone
    cases hnone
  · rcases hworker with ⟨-, hworker⟩ | ⟨-, hworker⟩ <;> rw [hworker] <;> exact h.stopped

/-- A job is over: its row gets another status, and the worker keeps of the jobs that wait those
whose rows stay. -/
theorem settled (hnow : s.now ≤ t.now) (jobId : String) (status : DispatchQueueStatus)
    (hstatus : status ≠ .pending) (hguard : ∀ r, u.guard r → r.id = jobId)
    (hset : ∀ r, u.set r = { r with status }) (hsub : t.worker.jobs.rows.Sublist s.worker.jobs.rows)
    (hjobs : ∀ row ∈ s.coord.db.dispatchQueue, row.status = .pending →
      (rowToQueuedJob js row ∈ t.worker.jobs ↔ u.guard row = false))
    (hcount : ∀ row ∈ s.coord.db.dispatchQueue, row.status = .pending → row.id = jobId →
      u.guard row = false → row.dispatchAttempts = 0)
    (hdispatched : t.worker.dispatched = s.worker.dispatched.delete jobId)
    (hattempts : t.worker.attempts = s.worker.attempts.delete jobId) (hstopped : t.worker.stopped = [])
    (hcoord : t.coord = s.coord.withDb (s.coord.db.update u)) (hfew : t.coord.pending.length ≤ 10)
    (hagree : t.Agree) : Twin js t := by
  have hdb : t.coord.db = s.coord.db.update u := by rw [hcoord]; rfl
  have hdone : ∀ r, u.guard r → (u.apply r).status ≠ .pending := fun r hg => by
    rw [apply_of_guard hg, hset]
    exact hstatus
  have hpending : ∀ r' ∈ (s.coord.db.update u).dispatchQueue, r'.status = .pending →
      r' ∈ s.coord.db.dispatchQueue ∧ u.guard r' = false := by
    intro r' hr' hp
    obtain ⟨r, hr, rfl⟩ := mem_update.1 hr'
    cases hg : u.guard r with
    | true => exact absurd hp (hdone r hg)
    | false => exact (apply_of_not_guard hg).symm ▸ ⟨hr, hg⟩
  refine ⟨?_, fun job => ?_, h.oldest.sublist hsub, fun job hjob => ?_, fun r' hr' hor => ?_,
    fun id hnone => ?_, hstopped, ?_, hfew, ?_, ?_, hagree⟩
  · rw [hdb]
    refine h.rows.update hnow fun r => ?_
    rw [hset]
    exact ⟨rfl, rfl, rfl, rfl⟩
  · rw [hdb]
    constructor
    · intro hjob
      obtain ⟨r, hr, hp, rfl⟩ := h.row_of_mem (hsub.subset hjob)
      exact ⟨r, mem_update.2 ⟨r, hr, apply_of_not_guard ((hjobs r hr hp).1 hjob)⟩, hp, rfl⟩
    · rintro ⟨r', hr', hp, rfl⟩
      obtain ⟨hr, hg⟩ := hpending r' hr' hp
      exact (hjobs r' hr hp).2 hg
  · rw [hdispatched, mem_delete] at hjob
    obtain ⟨r, hr, hstatus, rfl⟩ := h.dispatched job hjob.1
    have hg : u.guard r = false := eq_false_iff.2 fun hg => hjob.2 (hguard r hg)
    exact ⟨r, hdb ▸ mem_update.2 ⟨r, hr, apply_of_not_guard hg⟩, hstatus, rfl⟩
  · rw [attemptsOf_delete hattempts]
    rw [hdb] at hr'
    by_cases hid : r'.id = jobId
    · -- An agent does not have the job any more, so its row is pending.
      rw [if_pos hid]
      have hp : r'.status = .pending := by
        refine hor.resolve_right fun hsome => ?_
        rw [hdispatched, lookup_delete, if_pos hid] at hsome
        cases hsome
      obtain ⟨hr, hg⟩ := hpending r' hr' hp
      exact (hcount r' hr hp hid hg).symm
    · rw [if_neg hid]
      obtain ⟨r, hr, rfl⟩ := mem_update.1 hr'
      have hg : u.guard r = false := eq_false_iff.2 fun hg => hid ((u.key_apply r).trans (hguard r hg))
      rw [apply_of_not_guard hg] at hid hor ⊢
      refine h.attempts r hr (hor.imp_right fun hsome => ?_)
      rw [hdispatched, lookup_delete, if_neg hid] at hsome
      exact hsome
  · rw [attemptsOf_delete hattempts]
    split
    · rfl
    · rw [hdb] at hnone
      exact h.attempts_none id (row?_update_eq_none.1 hnone)
  · rw [hcoord]
    exact h.deferred
  · rw [hcoord]
    exact h.cache
  · rw [hcoord]
    exact h.maxDepth

/-- Both forget a job that has failed. -/
theorem markFailed (hnow : s.now ≤ t.now) (jobId : String)
    (hworker : t.worker = s.worker.markFailed jobId)
    (hcoord : t.coord = s.coord.withDb (s.coord.db.update (markFailed jobId)))
    (hfew : t.coord.pending.length ≤ 10) (hagree : t.Agree) : Twin js t := by
  have hguard : ∀ r, (JobQueue.markFailed jobId).guard r ↔ r.id = jobId := fun r => decide_eq_true_iff
  refine h.settled hnow jobId .failed nofun (fun r => (hguard r).1) (fun _ => rfl) ?_ ?_ ?_ ?_ ?_ ?_
    hcoord hfew hagree
  · rw [hworker]
    exact filter_sublist
  · intro row hrow hpending
    have hdelete : rowToQueuedJob js row ∈ s.worker.jobs.delete jobId ↔ row.id ≠ jobId := by
      rw [mem_delete]
      exact and_iff_right (h.mem_jobs hrow hpending)
    rw [hworker, ← not_eq_true, hguard]
    exact hdelete
  · intro row _ _ hid hnot
    exact absurd ((hguard row).2 hid) (eq_false_iff.1 hnot)
  · rw [hworker]
    rfl
  · rw [hworker]
    rfl
  · rw [hworker]
    exact congrArg (filter _) h.stopped

/-- Both forget a job that an agent has completed; one that waits is to have no count. -/
theorem markCompleted (hnow : s.now ≤ t.now) (jobId : String)
    (hcareful : ((s.worker.jobs.lookup jobId).isNone || s.worker.attemptsOf jobId = 0))
    (hworker : t.worker = s.worker.markCompleted jobId)
    (hcoord : t.coord = s.coord.withDb (s.coord.db.update (markCompleted jobId)))
    (hfew : t.coord.pending.length ≤ 10) (hagree : t.Agree) : Twin js t := by
  have hguard : ∀ r, (JobQueue.markCompleted jobId).guard r ↔
      r.id = jobId ∧ r.status ∈ [DispatchQueueStatus.dispatched, .recovering] := fun r =>
        decide_eq_true_iff
  refine h.settled hnow jobId .completed nofun (fun r hg => ((hguard r).1 hg).1) (fun _ => rfl)
    ?_ ?_ ?_ ?_ ?_ ?_ hcoord
    hfew hagree
  · rw [hworker]
    exact Sublist.refl _
  · intro row hrow hpending
    rw [hworker, ← not_eq_true, hguard, hpending]
    exact iff_of_true (h.mem_jobs hrow hpending) fun hg => absurd hg.2 (by decide)
  · intro row hrow hpending hid _
    have hjob := lookup_of_mem (h.mem_jobs hrow hpending)
    have hkey : (rowToQueuedJob js row).id = jobId := hid
    rw [hkey] at hjob
    rw [hjob] at hcareful
    rw [← h.attempts row hrow (.inl hpending), hid]
    simpa using hcareful
  · rw [hworker]
    rfl
  · rw [hworker]
    rfl
  · rw [hworker]
    exact congrArg (filter _) h.stopped

/-- A job that an agent has is put back, behind those that wait. -/
theorem requeued (hnow : s.now ≤ t.now) {job : QueuedJob} {jobId : String} (countAttempt : Bool)
    (hlookup : s.worker.dispatched.lookup jobId = some job)
    (hcareful : ∀ waiting ∈ s.worker.jobs, waiting.createdAt ≤ job.createdAt)
    (hworker : t.worker = { s.worker with
      dispatched := s.worker.dispatched.delete jobId
      jobs := s.worker.jobs.put { job with status := .pending }
      attempts := s.worker.attempts.put
        (jobId, s.worker.attemptsOf jobId + if countAttempt then 1 else 0) })
    (hcoord : t.coord = { s.coord with
      db := s.coord.db.update (requeue s.coord.db jobId countAttempt none)
      depthCache := none })
    (hfew : t.coord.pending.length ≤ 10) (hagree : t.Agree) : Twin js t := by
  obtain ⟨hjob, hid⟩ := lookup_eq_some.1 hlookup
  obtain ⟨row, hrow, hdispatched, hrowjob⟩ := h.dispatched job hjob
  have hrowid : row.id = jobId := by rw [← hid, ← hrowjob]; rfl
  have hdb : t.coord.db = s.coord.db.update (requeue s.coord.db jobId countAttempt none) := by
    rw [hcoord]
  have hnew : ∀ waiting ∈ s.worker.jobs, waiting.id ≠ job.id := h.not_mem_jobs_of_dispatched hjob
  set u := requeue s.coord.db jobId countAttempt none with hu
  have hput : u.apply row = { putBack row (if countAttempt then 1 else 0) with
      lastProvisioningError := row.lastProvisioningError } :=
    apply_of_guard (decide_eq_true ⟨hrowid, hdispatched, h.rows.notTerminalRun row⟩)
  have hother : ∀ r : DispatchRow, r.id ≠ jobId → u.apply r = r := fun r hne =>
    apply_of_not_guard (decide_eq_false fun hg => hne hg.1)
  have hputmem : u.apply row ∈ t.coord.db.dispatchQueue := hdb ▸ mem_update.2 ⟨row, hrow, rfl⟩
  have hkeep : ∀ r ∈ s.coord.db.dispatchQueue, r.id ≠ jobId → r ∈ t.coord.db.dispatchQueue :=
    fun r hr hne =>
    hdb ▸ mem_update.2 ⟨r, hr, hother r hne⟩
  have hcases : ∀ r' ∈ t.coord.db.dispatchQueue,
      r' = u.apply row ∨ r' ∈ s.coord.db.dispatchQueue ∧ r'.id ≠ jobId := by
    intro r' hr'
    rw [hdb] at hr'
    obtain ⟨r, hr, rfl⟩ := mem_update.1 hr'
    by_cases heq : r.id = jobId
    · exact .inl (congrArg u.apply (row_eq hr hrow (heq.trans hrowid.symm)))
    · exact .inr ((hother r heq).symm ▸ ⟨hr, heq⟩)
  have hputjob : rowToQueuedJob js (u.apply row) = { job with status := .pending } := by
    rw [hput, ← hrowjob]
    rfl
  have hattempts : t.worker.attempts =
      s.worker.attempts.put (jobId, s.worker.attemptsOf jobId + if countAttempt then 1 else 0) := by
        rw [hworker]
  refine ⟨?_, fun x => ?_, ?_, fun x hx => ?_, fun r' hr' hor => ?_, fun id hnone => ?_, ?_, ?_, hfew,
    ?_, ?_, hagree⟩
  · rw [hdb]
    exact h.rows.update hnow fun _ => ⟨rfl, rfl, rfl, rfl⟩
  · have hjobs : x ∈ t.worker.jobs ↔ x = { job with status := .pending } ∨ x ∈ s.worker.jobs ∧
      x.id ≠ job.id := by
      rw [hworker]
      exact mem_put
    rw [hjobs]
    constructor
    · rintro (rfl | ⟨hx, hne⟩)
      · exact ⟨u.apply row, hputmem, by rw [hput]; rfl, hputjob⟩
      · obtain ⟨r, hr, hpending, rfl⟩ := h.row_of_mem hx
        exact ⟨r, hkeep r hr fun heq => hne (heq.trans hid.symm), hpending, rfl⟩
    · rintro ⟨r', hr', hpending, rfl⟩
      rcases hcases r' hr' with rfl | ⟨hr, hne⟩
      · exact .inl hputjob
      · exact .inr ⟨h.mem_jobs hr hpending, fun heq => hne (heq.trans hid)⟩
  · rw [hworker]
    have hrows : (s.worker.jobs.put { job with status := .pending }).rows =
      s.worker.jobs.rows ++ [{ job with status := .pending }] := rows_put_of_fresh hnew
    rw [hrows, pairwise_append]
    refine ⟨h.oldest, pairwise_singleton _ _, fun waiting hwaiting job' hjob' => ?_⟩
    rw [mem_singleton.1 hjob']
    refine Nat.lt_of_le_of_ne (hcareful waiting hwaiting) fun heq => ?_
    -- No two rows have one time of creation.
    obtain ⟨r, hr, -, rfl⟩ := h.row_of_mem hwaiting
    have hsame := h.rows.createdAt_inj r hr row hrow (by rw [← hrowjob] at heq; exact heq)
    exact hnew _ hwaiting (by rw [hsame, ← hrowjob])
  · rw [hworker] at hx
    obtain ⟨hx, hne⟩ := mem_delete.1 hx
    obtain ⟨r, hr, hstatus, rfl⟩ := h.dispatched x hx
    exact ⟨r, hkeep r hr hne, hstatus, rfl⟩
  · rw [attemptsOf_put hattempts]
    rcases hcases r' hr' with rfl | ⟨hr, hne⟩
    · have hsome : (s.worker.dispatched.lookup row.id).isSome := by
        rw [hrowid, hlookup]
        rfl
      rw [if_pos ((u.key_apply row).trans hrowid), ← hrowid, h.attempts row hrow (.inr hsome), hput]
      rfl
    · rw [if_neg hne]
      refine h.attempts r' hr (hor.imp_right fun hsome => ?_)
      rw [hworker] at hsome
      simp only [lookup_delete, if_neg hne] at hsome
      exact hsome
  · rw [attemptsOf_put hattempts]
    rw [hdb] at hnone
    have hold := row?_update_eq_none.1 hnone
    rw [if_neg, h.attempts_none id hold]
    rintro rfl
    exact row?_ne_none hrow (hrowid ▸ hold)
  · rw [hworker]
    exact h.stopped
  · rw [hcoord]
    exact h.deferred
  · rw [hcoord]
    rintro _ ⟨⟩
  · rw [hcoord]
    exact h.maxDepth

/-- What a requeue answers, and what it leaves. -/
theorem requeue (hnow : s.now ≤ t.now) (jobId : String) (countAttempt : Bool)
    (hcareful : s.putsBack jobId) (hworker : t.worker = (s.worker.requeue jobId countAttempt).2)
    (hcoord : t.coord = (s.coord.requeue jobId countAttempt).2)
    (hanswers : t.answers = s.answers ++ [(.attempts (s.worker.requeue jobId countAttempt).1,
      .attempts (s.coord.requeue jobId countAttempt).1)])
    (hfew : t.coord.pending.length ≤ 10) : Twin js t := by
  rw [TwinState.putsBack] at hcareful
  cases hlookup : s.worker.dispatched.lookup jobId with
  | none =>
    rw [hlookup] at hcareful
    have hguard : ∀ r ∈ s.coord.db.dispatchQueue,
        (JobQueue.requeue s.coord.db jobId countAttempt none).guard r = false := by
      intro r hr
      refine decide_eq_false fun hg => ?_
      rw [Db.row?, ← hg.1, Table.lookup_of_mem hr] at hcareful
      simp [hg.2.1] at hcareful
    have hnone : s.worker.requeue jobId countAttempt = (none, s.worker) := by
      rw [InMemoryJobQueue.requeue, hlookup]
    have hnone' : s.coord.requeue jobId countAttempt = (none, { s.coord with depthCache := none }) := by
      have hreturning :
          s.coord.db.dispatchQueue.returning (JobQueue.requeue s.coord.db jobId countAttempt none) =
            [] := by
        rw [returning, filter_eq_nil_iff.2 fun r hr => eq_false_iff.1 (hguard r hr)]
        rfl
      rw [CoordinatorQueue.requeue, hreturning, Db.update, execute_of_not_guard hguard]
      rfl
    rw [hnone] at hworker hanswers
    rw [hnone'] at hcoord hanswers
    exact h.idle hnow hworker (by rw [hcoord]) (by rw [hcoord]) (by rw [hcoord]; rintro _ ⟨⟩)
      (by rw [hcoord])
      (h.agree_append rfl hanswers)
  | some job =>
    rw [hlookup] at hcareful
    obtain ⟨hjob, hid⟩ := lookup_eq_some.1 hlookup
    obtain ⟨row, hrow, hdispatched, hrowjob⟩ := h.dispatched job hjob
    have hrowid : row.id = jobId := by rw [← hid, ← hrowjob]; rfl
    have hsome : (s.worker.dispatched.lookup row.id).isSome := by
      rw [hrowid, hlookup]
      rfl
    have hput : s.worker.requeue jobId countAttempt =
        (some (s.worker.attemptsOf jobId + if countAttempt then 1 else 0), { s.worker with
          dispatched := s.worker.dispatched.delete jobId
          jobs := s.worker.jobs.put { job with status := .pending }
          attempts := s.worker.attempts.put (jobId, s.worker.attemptsOf jobId + if countAttempt then 1
            else 0) }) := by
      rw [InMemoryJobQueue.requeue, hlookup]
      simp only [h.stopped]
      rfl
    -- The one row that is put back is that of the job.
    have hanswer : (s.coord.requeue jobId countAttempt).1 =
        some (s.worker.attemptsOf jobId + if countAttempt then 1 else 0) := by
      have hguard : ∀ r ∈ s.coord.db.dispatchQueue,
          ((JobQueue.requeue s.coord.db jobId countAttempt none).guard r ↔ r = row) := by
        intro r hr
        refine ⟨fun hg => row_eq hr hrow ((of_decide_eq_true hg).1.trans hrowid.symm), ?_⟩
        rintro rfl
        exact decide_eq_true ⟨hrowid, hdispatched, h.rows.notTerminalRun _⟩
      have hfilter : s.coord.db.dispatchQueue.rows.filter
          (JobQueue.requeue s.coord.db jobId countAttempt none).guard = [row] := by
        refine perm_singleton.1 ((perm_ext_iff_of_nodup (s.coord.db.dispatchQueue.nodup.of_map.filter _)
          (nodup_singleton row)).2 fun r => ?_)
        rw [mem_filter, mem_singleton]
        exact ⟨fun hr => (hguard r hr.1).1 hr.2, fun heq => heq ▸ ⟨hrow, (hguard row hrow).2 rfl⟩⟩
      rw [CoordinatorQueue.requeue, returning, hfilter, ← hrowid, h.attempts row hrow (.inr hsome)]
      rfl
    rw [hput, hanswer] at hanswers
    rw [hput] at hworker
    have hcareful' : ∀ waiting ∈ s.worker.jobs, waiting.createdAt ≤ job.createdAt :=
      fun waiting hwaiting =>
      of_decide_eq_true (all_eq_true.1 hcareful waiting hwaiting)
    exact h.requeued hnow countAttempt hlookup hcareful' hworker hcoord hfew
      (h.agree_append rfl hanswers)

/-- Both list the same jobs. -/
theorem listPending (order : OrderBy createdAt) (now limit : ℕ) :
    (s.worker.listPending limit).map QueuedJob.id = (s.coord.listPending order now limit).map
    DispatchRow.id := by
  have hpending : s.worker.getPendingJobs = s.worker.jobs.rows :=
    filter_eq_self.2 fun job hjob => h.waits hjob
  have hmap : (oldestFirst order s.coord.db fun row => row.status = .pending ∧
      (∀ expiresAt ∈ row.expiresAt, s.coord.db.now ≤ expiresAt) ∧
        s.coord.queue.isDeferredUnopenable now row.id = false).map (rowToQueuedJob js) =
      s.worker.jobs.rows.filter fun _ => true := by
    refine h.map_oldestFirst order fun row hrow => ?_
    rw [decide_eq_true_iff]
    exact ⟨fun hc => ⟨hc.1, rfl⟩, fun hc => ⟨hc.1, h.unexpired hrow, h.notDeferred now row.id⟩⟩
  rw [filter_true] at hmap
  rw [InMemoryJobQueue.listPending, hpending, ← hmap, CoordinatorQueue.listPending, ← map_take, map_map]
  rfl

theorem worker_getDepth : s.worker.getDepth = s.coord.pending.length := by
  rw [InMemoryJobQueue.getDepth, InMemoryJobQueue.getPendingJobs, filter_eq_self.2 fun job hjob =>
    h.waits hjob, h.length_jobs]

/-- The depth of a coordinator is at most ten; it does not change the queue to read it. -/
theorem coord_getDepth (now : ℕ) : (s.coord.getDepth now).1 ≤ 10 ∧
    (s.coord.getDepth now).2.db = s.coord.db ∧ (s.coord.getDepth now).2.queue = s.coord.queue ∧
      (s.coord.getDepth now).2.maxDepth = s.coord.maxDepth ∧
        ∀ cached, (s.coord.getDepth now).2.depthCache = some cached → cached.1 ≤ 10 := by
  have hread : ∀ cached, some (s.coord.pending.length, now + 1000) = some cached → cached.1 ≤ 10 := by
    intro cached hcached
    cases hcached
    exact h.few
  rw [CoordinatorQueue.getDepth]
  cases hcache : s.coord.depthCache with
  | none => exact ⟨h.few, rfl, rfl, rfl, hread⟩
  | some cached =>
    dsimp only
    split
    · exact ⟨h.cache cached hcache, rfl, rfl, rfl, h.cache⟩
    · exact ⟨h.few, rfl, rfl, rfl, hread⟩

/-- A job is queued on both sides; the ten jobs that may wait do not fill the queue of the
coordinator. -/
theorem enqueue (hjs : js.LowerCases) (hnow : s.now < now) {job : QueuedJobInput}
    (hfresh : s.coord.db.row? job.jobId = none)
    (hfew : (s.call js order ⟨.enqueue job, now⟩).coord.pending.length ≤ 10) :
    Twin js (s.call js order ⟨.enqueue job, now⟩) := by
  obtain ⟨hdepth, -⟩ := h.coord_getDepth now
  have henqueued : s.coord.enqueue js now job = (.job (some job.jobId), { s.coord with
      db := JobQueue.enqueue js s.coord.db now job 0
      depthCache := none }) := by
    rw [CoordinatorQueue.enqueue]
    exact if_neg (Nat.not_le_of_lt (Nat.lt_of_le_of_lt hdepth h.maxDepth))
  have hcoord : (s.call js order ⟨.enqueue job, now⟩).coord = { s.coord with
      db := JobQueue.enqueue js s.coord.db now job 0
      depthCache := none } := congrArg Prod.snd henqueued
  have hjob : rowToQueuedJob js { rowOf js now job .pending with expiresAt := none } =
    queuedJobOf js job now := by
    simp only [rowToQueuedJob, rowOf, queuedJobOf, hjs.canonicalizeLabels]
  refine h.inserted { rowOf js now job .pending with expiresAt := none } hnow hfresh rfl rfl
    (hjs.canonicalizeLabels _) (hjs.canonicalizeLabels _) rfl (.inl ⟨rfl, ?_⟩) ?_ ?_ ?_ ?_ hfew ?_
  · rw [hjob]
    rfl
  · rw [hcoord]
    rfl
  · rw [hcoord]
  · rw [hcoord]
    rintro _ ⟨⟩
  · rw [hcoord]
  · exact h.agree_append (congrArg Prod.fst henqueued).symm rfl

/-- The coordinator records a job that is dispatched at once. -/
theorem insertDispatched (hjs : js.LowerCases) (hnow : s.now < now) {job : QueuedJobInput}
    {agentId : String} (hfresh : s.coord.db.row? job.jobId = none)
    (hfew : (s.call js order ⟨.insertDispatched job agentId, now⟩).coord.pending.length ≤ 10) :
    Twin js (s.call js order ⟨.insertDispatched job agentId, now⟩) := by
  have hinserted : s.coord.insertDispatched js now job agentId = (.inserted job.jobId true,
      s.coord.withDb (JobQueue.insertDispatched js s.coord.queue s.coord.db now job agentId)) := by
    rw [CoordinatorQueue.insertDispatched, hfresh]
    rfl
  have hcoord : (s.call js order ⟨.insertDispatched job agentId, now⟩).coord =
      s.coord.withDb (JobQueue.insertDispatched js s.coord.queue s.coord.db now job agentId) :=
    congrArg Prod.snd hinserted
  let row : DispatchRow := { rowOf js now job .dispatched with
    agentId := some agentId
    ownerInstanceId := s.coord.queue.instanceId
    dispatchedAt := some now }
  refine h.inserted row hnow hfresh rfl rfl
    (hjs.canonicalizeLabels _) (hjs.canonicalizeLabels _) rfl (.inr ⟨rfl, rfl⟩) ?_ ?_ ?_ ?_ hfew ?_
  · rw [hcoord]
    rfl
  · rw [hcoord]
    rfl
  · rw [hcoord]
    exact h.cache
  · rw [hcoord]
    rfl
  · exact h.agree_append (congrArg Prod.fst hinserted).symm rfl

/-- A depth read before is still right, or is read again. -/
theorem getDepth (hnow : s.now ≤ now)
    (hcareful : (s.coord.depthCache.all fun cached =>
      cached.2 ≤ now || cached.1 = s.coord.pending.length)) :
    Twin js (s.call js order ⟨.getDepth, now⟩) := by
  obtain ⟨-, hdb, hqueue, hmax, hcache⟩ := h.coord_getDepth now
  refine h.idle hnow rfl hdb hqueue hcache hmax (h.agree_append (congrArg QueueAnswer.depth ?_) rfl)
  rw [h.worker_getDepth, CoordinatorQueue.getDepth]
  cases hcached : s.coord.depthCache with
  | none => rfl
  | some cached =>
    rw [hcached] at hcareful
    dsimp only
    split
    next hlt =>
      have hor : cached.2 ≤ now ∨ cached.1 = s.coord.pending.length := by simpa using hcareful
      exact (hor.resolve_left (Nat.not_le_of_lt hlt)).symm
    next => rfl

end

theorem init (h : s ∈ (twinSystem js order).init) : Twin js s := by
  obtain ⟨hworker, hdb, hruns, hdeferred, hcache, hmax, hanswers⟩ := h
  have hnone : ∀ r, r ∉ s.coord.db.dispatchQueue := fun r hr => by
    rw [hdb] at hr
    cases hr
  have hpending : s.coord.pending = [] := by
    rw [CoordinatorQueue.pending, hdb]
    rfl
  refine ⟨⟨?_, ?_, ?_, ?_, ?_, hruns⟩, ?_, ?_, ?_, ?_, ?_, ?_, hdeferred, ?_, ?_, hmax, ?_⟩
  · exact fun r hr => absurd hr (hnone r)
  · exact fun r hr => absurd hr (hnone r)
  · exact fun r hr => absurd hr (hnone r)
  · exact fun r hr => absurd hr (hnone r)
  · exact fun r hr => absurd hr (hnone r)
  · rw [hworker]
    exact fun job => iff_of_false not_mem_nil fun h => hnone _ h.choose_spec.1
  · rw [hworker]
    exact .nil
  · rw [hworker]
    rintro _ ⟨⟩
  · exact fun r hr => absurd hr (hnone r)
  · rw [hworker]
    exact fun _ _ => rfl
  · rw [hworker]
    rfl
  · rw [hpending]
    exact Nat.zero_le 10
  · rw [hcache]
    rintro _ ⟨⟩
  · rw [TwinState.Agree, hanswers]
    rintro _ ⟨⟩

/-- Each call keeps it, if it keeps to what the worker can tell. -/
theorem step (hjs : js.LowerCases) {a : TwinAction} (hcareful : s.careful js a)
    (hstep : twinStep js order s a = some t) (h : Twin js s) : Twin js t := by
  obtain ⟨op, now⟩ := a
  rw [twinStep] at hstep
  split at hstep
  case isFalse => cases hstep
  next hguard =>
    cases hstep
    simp only [and_eq_true, decide_eq_true_eq] at hguard
    obtain ⟨⟨hnow, hfresh⟩, hfew⟩ := hguard
    cases op with
    | enqueue job => exact h.enqueue hjs hnow (by simpa [TwinState.fresh] using hfresh) hfew
    | insertDispatched job agentId =>
      exact h.insertDispatched hjs hnow (by simpa [TwinState.fresh] using hfresh) hfew
    | dequeueForLabels agent canServe =>
      have hworker := h.worker_dequeueForLabels agent canServe
      obtain ⟨hanswer, hafter⟩ := h.coord_dequeueForLabels order now agent canServe hcareful
      refine h.dequeued hnow.le (fun job hfound => ?_) agent.agentId hanswer hafter ?_ rfl rfl ?_ hfew
      · exact (mem_filter.1 (mem_of_firstAdmitted hfound)).1
      · rw [← hworker]
        rfl
      · rw [← hworker]
        rfl
    | dequeueById jobId agentLabels gate agentId =>
      have hworker := h.worker_dequeueById jobId agentLabels gate
      have hcoord := h.coord_dequeueById now jobId agentLabels gate agentId
      refine h.dequeued hnow.le (fun job => mem_of_foundById) agentId (congrArg jobAnswer hcoord)
        (congrArg (queueAfter s.coord.db) hcoord) ?_ rfl rfl ?_ hfew
      · rw [← hworker]
        rfl
      · rw [← hworker]
        rfl
    | dequeueByPinnedAgent agentId agentLabels =>
      have hworker := h.worker_dequeueByPinnedAgent agentId agentLabels
      have hcoord := h.coord_dequeueByPinnedAgent order now agentId agentLabels hcareful
      refine h.dequeued hnow.le (fun job hfound => ?_) (some agentId) (congrArg jobAnswer hcoord)
        (congrArg (queueAfter s.coord.db) hcoord) ?_ rfl rfl ?_ hfew
      · exact (mem_filter.1 (mem_of_firstAdmitted hfound)).1
      · rw [← hworker]
        rfl
      · rw [← hworker]
        rfl
    | markFailed jobId => exact h.markFailed hnow.le jobId rfl rfl hfew (h.agree_append rfl rfl)
    | markCompleted jobId =>
      exact h.markCompleted hnow.le jobId hcareful rfl rfl hfew (h.agree_append rfl rfl)
    | requeue jobId countAttempt => exact h.requeue hnow.le jobId countAttempt hcareful rfl rfl rfl hfew
    | listPending limit =>
      exact h.idle hnow.le rfl rfl rfl h.cache rfl
        (h.agree_append (congrArg QueueAnswer.jobs (h.listPending order now limit)) rfl)
    | getDepth => exact h.getDepth hnow.le hcareful

/-- The first job that is admitted is the oldest of the eligible ones. -/
theorem handsOut (h : Twin js s) {op : QueueOp} {keep : QueuedJob → Bool}
    {admits : QueuedJob → Except RegExpError Bool}
    (hop : ∀ row ∈ s.coord.db.dispatchQueue, row.status = .pending → (s.Eligible js op row ↔
      keep (rowToQueuedJob js row) ∧ admits (rowToQueuedJob js row) = .ok true)) :
    s.HandsOut js op (jobAnswer
      ((firstAdmitted admits (s.worker.jobs.rows.filter keep)).map s.worker.taken)) := by
  have hmem : ∀ row, s.Eligible js op row → rowToQueuedJob js row ∈ s.worker.jobs.rows.filter keep ∧
      admits (rowToQueuedJob js row) = .ok true := by
    intro row hrow
    obtain ⟨hkeep, hadmits⟩ := (hop row hrow.1 hrow.2.1).1 hrow
    exact ⟨mem_filter.2 ⟨h.mem_jobs hrow.1 hrow.2.1, hkeep⟩, hadmits⟩
  cases hfound : firstAdmitted admits (s.worker.jobs.rows.filter keep) with
  | error e => trivial
  | ok found =>
    cases found with
    | none =>
      intro row hrow
      have hrefused := refused_of_firstAdmitted hfound (hmem row hrow).1
      rw [(hmem row hrow).2] at hrefused
      cases hrefused
    | some job =>
      obtain ⟨hjob, hkeep⟩ := mem_filter.1 (mem_of_firstAdmitted hfound)
      obtain ⟨row, hrow, hpending, rfl⟩ := h.row_of_mem hjob
      refine ⟨row, (hop row hrow hpending).2 ⟨hkeep, admitted_of_firstAdmitted hfound⟩, rfl,
        fun row' hrow' => ?_⟩
      rcases eq_or_rel_of_firstAdmitted (h.oldest.filter _) hfound (hmem row' hrow').1
        (hmem row' hrow').2 with heq | hlt
      · exact (congrArg QueuedJob.createdAt heq).ge
      · exact hlt.le

/-- The job of an id is the only one that may be found. -/
theorem handsOut_byId (h : Twin js s) {agentLabels gate : List String} {agentId : Option String}
    (hcareful : s.takesById jobId agentId) :
    s.HandsOut js (.dequeueById jobId agentLabels gate agentId)
      (jobAnswer ((foundById js s jobId agentLabels gate).map s.worker.taken)) := by
  have hlookup : ∀ row, s.Eligible js (.dequeueById jobId agentLabels gate agentId) row →
      s.worker.jobs.lookup jobId = some (rowToQueuedJob js row) := by
    rintro row ⟨hrow, hpending, rfl, -⟩
    exact lookup_of_mem (h.mem_jobs hrow hpending)
  rw [TwinState.takesById] at hcareful
  rw [foundById]
  cases hjob : s.worker.jobs.lookup jobId with
  | none =>
    intro row hrow
    rw [hlookup row hrow] at hjob
    cases hjob
  | some job =>
    rw [hjob] at hcareful
    obtain ⟨hmem, hid⟩ := lookup_eq_some.1 hjob
    obtain ⟨row, hrow, hpending, rfl⟩ := h.row_of_mem hmem
    dsimp only
    cases hgate : matchesGate js agentLabels gate (rowToQueuedJob js row) with
    | error e => trivial
    | ok matched =>
      cases matched with
      | false =>
        intro row' hrow'
        have hsame := hrow'.2.2.2.2
        rw [← Option.some.inj (hjob.symm.trans (hlookup row' hrow')), hgate] at hsame
        cases hsame
      | true =>
        refine ⟨row, ⟨hrow, hpending, hid, hcareful, hgate⟩, rfl, fun row' hrow' => ?_⟩
        rw [row_eq hrow'.1 hrow (hrow'.2.2.1.trans hid.symm)]

/-- What the worker answers is the oldest job that the agent may have. -/
theorem worker_handsOut (h : Twin js s) {op : QueueOp} (now : ℕ) (hop : op.dequeues)
    (hcareful : s.careful js ⟨op, now⟩) : s.HandsOut js op (s.worker.call js now op).1 := by
  cases op with
  | dequeueForLabels agent canServe =>
    have hpins := (and_eq_true_iff.1 hcareful).1
    rw [InMemoryJobQueue.call, h.worker_dequeueForLabels]
    refine h.handsOut fun row hrow hpending => ?_
    refine ⟨fun hrow => ⟨hrow.2.2.1, hrow.2.2.2.2⟩, fun ⟨hlabels, hadmits⟩ =>
      ⟨hrow, hpending, hlabels, ?_, hadmits⟩⟩
    exact all_eq_true.1 hpins _ (mem_filter.2 ⟨h.mem_jobs hrow hpending, hlabels⟩)
  | dequeueById jobId agentLabels gate agentId =>
    rw [InMemoryJobQueue.call, h.worker_dequeueById]
    exact h.handsOut_byId hcareful
  | dequeueByPinnedAgent agentId agentLabels =>
    rw [InMemoryJobQueue.call, h.worker_dequeueByPinnedAgent]
    refine h.handsOut fun row hrow hpending => ?_
    exact ⟨fun hrow => ⟨decide_eq_true hrow.2.2.1, hrow.2.2.2⟩, fun ⟨hpin, hadmits⟩ =>
      ⟨hrow, hpending, of_decide_eq_true hpin, hadmits⟩⟩
  | _ => cases hop

theorem oldestFirst (h : Twin js s) (hjs : js.LowerCases) (order : OrderBy createdAt) :
    s.OldestFirst js order := by
  intro op now t hop hcareful hstep answers hlast
  have hsame := (h.step hjs hcareful hstep).agree answers (mem_of_getLast? hlast)
  rw [← hsame]
  rw [twinStep] at hstep
  split at hstep
  case isFalse => cases hstep
  next =>
    cases hstep
    rw [TwinState.call, getLast?_append_of_ne_nil _ (cons_ne_nil _ _)] at hlast
    rw [← Option.some.inj hlast]
    exact ⟨h.worker_handsOut now hop hcareful, h.worker_handsOut now hop hcareful⟩

end Twin

/-- The worker and the coordinator answer the same and hand out the oldest job, as long as the calls
keep to what the worker can tell. -/
theorem twins_agree (hjs : js.LowerCases) (order : OrderBy createdAt) (s : TwinState)
    (h : (twinSystem js order).Reachable (fun s a => s.careful js a) s) : s.Agree ∧
    s.OldestFirst js order := by
  have htwin : Twin js s := h.invariant (fun s hs => Twin.init hs) fun s a t hs hcareful hstep =>
    hs.step hjs hcareful hstep
  exact ⟨htwin.agree, htwin.oldestFirst hjs order⟩

/-- Two empty queues. -/
def emptyTwins : TwinState where
  worker := .empty
  coord := {
    queue := {}
    db := emptyQueue.db
    depthCache := none
    maxDepth := 100 }
  now := 0
  answers := []

theorem emptyTwins_mem_init : emptyTwins ∈ (twinSystem lowercaseRuntime createdAtOrder).init :=
  ⟨rfl, rfl, nofun, rfl, rfl, by decide, rfl⟩

def jobOf (jobId : String) (pinnedAgentId : Option String) : QueuedJobInput where
  jobId
  runId := "run"
  jobName := "build"
  pinnedAgentId

def anyAgent : AgentQuery := { agentLabels := ["linux"], agentId := some "agent" }

/-- A job is put back before others come, and is handed out again; one that is pinned goes to its
agent. -/
def requeuedRun : List TwinAction :=
  [⟨.enqueue (jobOf "old" none), 1⟩, ⟨.dequeueForLabels anyAgent none, 2⟩, ⟨.requeue "old" true, 3⟩,
    ⟨.enqueue (jobOf "pinned" (some "agent")), 4⟩, ⟨.enqueue (jobOf "young" none), 5⟩,
    ⟨.dequeueForLabels anyAgent none, 6⟩, ⟨.dequeueByPinnedAgent "agent" none, 7⟩,
    ⟨.dequeueById "young" [] [] (some "other"), 8⟩, ⟨.getDepth, 9⟩]

theorem twins_agree_requeued : ∃ s, (twinSystem lowercaseRuntime createdAtOrder).Reachable
    (fun s a => s.careful lowercaseRuntime a) s ∧ s.answers.length = 9 ∧ s.Agree ∧
      s.OldestFirst lowercaseRuntime createdAtOrder := by
  have hrun : (((twinSystem lowercaseRuntime createdAtOrder).run
    (fun s a => s.careful lowercaseRuntime a) emptyTwins
      requeuedRun).any fun s => decide (s.answers.length = 9)) := by decide
  obtain ⟨s, hpath, hp⟩ := exists_path_of_run (fun _ _ h => h) _ hrun
  have hreach : (twinSystem lowercaseRuntime createdAtOrder).Reachable
      (fun s a => s.careful lowercaseRuntime a) s := ⟨_, emptyTwins_mem_init, hpath⟩
  exact ⟨s, hreach, of_decide_eq_true hp,
    twins_agree ⟨fun _ => rfl, fun _ => rfl⟩ createdAtOrder s hreach⟩

/-- The last call was answered differently. -/
def TwinState.differ (s : TwinState) (answer answer' : QueueAnswer) : Bool :=
  s.answers.getLast? = some (answer, answer') && answer ≠ answer'

theorem exists_of_differ (as : List TwinAction) {answer answer' : QueueAnswer}
    (h : (((twinSystem lowercaseRuntime createdAtOrder).run (fun _ _ => true) emptyTwins as).any
      fun s => s.differ answer answer')) :
    ∃ s, (twinSystem lowercaseRuntime createdAtOrder).Reachable anyStep s ∧
      s.answers.getLast? = some (answer, answer') ∧ ¬s.Agree := by
  obtain ⟨s, hpath, hp⟩ := exists_path_of_run anyStep_of_true _ h
  obtain ⟨hlast, hne⟩ := and_eq_true_iff.1 hp
  have hlast := of_decide_eq_true hlast
  refine ⟨s, ⟨_, emptyTwins_mem_init, hpath⟩, hlast, fun hagree => ?_⟩
  exact of_decide_eq_true hne (hagree _ (mem_of_getLast? hlast))

/-- The worker does not put back a job that was dispatched at once; it hands out a younger job
before one that was put back; and it gives a job that is pinned to another agent away. -/
theorem exists_twins_differ :
    (∃ s, (twinSystem lowercaseRuntime createdAtOrder).Reachable anyStep s ∧
      s.answers.getLast? = some (.attempts none, .attempts (some 1)) ∧ ¬s.Agree) ∧
    (∃ s, (twinSystem lowercaseRuntime createdAtOrder).Reachable anyStep s ∧
      s.answers.getLast? = some (.job (some "young"), .job (some "old")) ∧ ¬s.Agree) ∧
    ∃ s, (twinSystem lowercaseRuntime createdAtOrder).Reachable anyStep s ∧
      s.answers.getLast? = some (.job (some "pinned"), .job none) ∧ ¬s.Agree := by
  refine ⟨exists_of_differ
    ([⟨.insertDispatched (jobOf "old" none) "agent", 1⟩, ⟨.requeue "old" true, 2⟩])
    (by decide), exists_of_differ ([⟨.enqueue (jobOf "old" none), 1⟩, ⟨.enqueue (jobOf "young" none), 2⟩,
      ⟨.dequeueForLabels anyAgent none, 3⟩, ⟨.requeue "old" true, 4⟩,
        ⟨.dequeueForLabels anyAgent none, 5⟩])
    (by decide), exists_of_differ ([⟨.enqueue (jobOf "pinned" (some "other")), 1⟩,
      ⟨.dequeueForLabels anyAgent none, 2⟩]) (by decide)⟩

end Kici.Worker
