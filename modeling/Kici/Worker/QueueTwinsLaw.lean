import Kici.Queue.DrainOrder
import Kici.Worker.QueueTwins

/-!
# Where the two queues agree

The two queues answer the same and hand out the oldest job (`twins_agree`, in
`Kici.Worker.QueueTwinsRun`) as long as the calls keep to what the worker's maps can tell
(`TwinState.careful`): the jobs of a worker are in the order of their creation only until one is put
back behind a younger one; a worker does not look at the pins of jobs when it hands them out by
their labels, and neither of the two does when a job is asked for by its id; and a worker knows
nothing of a job that was dispatched at once. On the other side, a
coordinator hands out a job without expressions before an older one that has some, looks at one job
of those pinned to an agent, and reads its depth again only after a second.

What is kept (`Twin`): the jobs that wait at the worker are those of the pending rows, the oldest
first.
-/

namespace Kici.Worker

open List JobQueue DispatchRow Table Update

variable (js : JsRuntime)

/-- The job may be handed to the agent, as far as pins go. -/
def pinAllows (agent : AgentQuery) (job : QueuedJob) : Bool :=
  job.pinnedAgentId = none ||
    (agent.agentId ≠ some "" && agent.agentId.isSome && job.pinnedAgentId = agent.agentId)

def jobPatternFree (job : QueuedJob) : Bool := job.runsOnPatterns.isEmpty && job.excludePatterns.isEmpty

/-- The test refuses the job. -/
def refuses (admits : Except RegExpError Bool) : Bool :=
  match admits with
  | .ok false => true
  | _ => false

namespace TwinState

variable (s : TwinState)

/-- The jobs that wait and whose labels the agent meets. -/
def candidates (agent : AgentQuery) : List QueuedJob :=
  s.worker.jobs.rows.filter (labelsMatch js agent.agentLabels agent.agentMandatoryLabels)

/-- The jobs that wait and are pinned to the agent. -/
def pinnedTo (agentId : String) : List QueuedJob :=
  s.worker.jobs.rows.filter fun job => job.pinnedAgentId = some agentId

/-- Where jobs are handed out by their labels, none of them is pinned to another agent, and one
without expressions is the oldest if there is any. -/
def drains (agent : AgentQuery) (canServe : Option (QueuedJob → Bool)) : Bool :=
  (s.candidates js agent).all (pinAllows agent) &&
    (canServe.isSome || (s.candidates js agent).head?.all jobPatternFree ||
      (s.candidates js agent).all fun job => !jobPatternFree job)

/-- The oldest job pinned to the agent is not refused, or is the only one. -/
def drainsPinned (agentId : String) (agentLabels : Option (List String)) : Bool :=
  decide ((s.pinnedTo agentId).length ≤ 1) ||
    (s.pinnedTo agentId).head?.all fun job => !refuses (InMemoryJobQueue.pinAdmits js agentLabels job)

/-- The job that is asked for by its id is not pinned to another agent. -/
def takesById (jobId : String) (agentId : Option String) : Bool :=
  (s.worker.jobs.lookup jobId).all (pinAllows { agentLabels := [], agentId })

/-- The job is not one that was dispatched at once, and none that waits is younger. -/
def putsBack (jobId : String) : Bool :=
  match s.worker.dispatched.lookup jobId with
  | some job => s.worker.jobs.rows.all fun waiting => waiting.createdAt ≤ job.createdAt
  | none => (s.coord.db.row? jobId).all fun row => row.status ≠ .dispatched

/-- The condition on the calls. -/
def careful (a : TwinAction) : Bool :=
  match a.op with
  | .dequeueForLabels agent canServe => s.drains js agent canServe
  | .dequeueById jobId _ _ agentId => s.takesById jobId agentId
  | .dequeueByPinnedAgent agentId agentLabels => s.drainsPinned js agentId agentLabels
  | .markCompleted jobId => (s.worker.jobs.lookup jobId).isNone || s.worker.attemptsOf jobId = 0
  | .requeue jobId _ => s.putsBack jobId
  | .getDepth => s.coord.depthCache.all fun cached =>
    cached.2 ≤ a.now || cached.1 = s.coord.pending.length
  | _ => true

end TwinState

/-- The call asks for a job. -/
def QueueOp.dequeues : QueueOp → Bool
  | .dequeueForLabels .. | .dequeueById .. | .dequeueByPinnedAgent .. => true
  | _ => false

/-- What the worker admits. -/
def admitsFor (agent : AgentQuery) (canServe : Option (QueuedJob → Bool)) (job : QueuedJob) :
    Except RegExpError Bool := do
  return (← jobPatternsSatisfiedBy js job (js.canonicalizeLabels agent.agentLabels)) &&
    canServe.all fun canServe => canServe job

namespace TwinState

variable (s : TwinState)

/-- The row is of a job that the call may hand to its agent: the agent meets the labels and the
expressions and can serve the job, and the job is pinned to no other agent. -/
def Eligible (op : QueueOp) (row : DispatchRow) : Prop :=
  row ∈ s.coord.db.dispatchQueue ∧ row.status = .pending ∧
    match op with
    | .dequeueForLabels agent canServe =>
      labelsMatch js agent.agentLabels agent.agentMandatoryLabels (rowToQueuedJob js row) = true ∧
        pinAllows agent (rowToQueuedJob js row) = true ∧
          admitsFor js agent canServe (rowToQueuedJob js row) = .ok true
    | .dequeueById jobId agentLabels gate agentId =>
      row.id = jobId ∧ pinAllows { agentLabels, agentId } (rowToQueuedJob js row) = true ∧
        matchesGate js agentLabels gate (rowToQueuedJob js row) = .ok true
    | .dequeueByPinnedAgent agentId agentLabels =>
      row.pinnedAgentId = some agentId ∧
        InMemoryJobQueue.pinAdmits js agentLabels (rowToQueuedJob js row) = .ok true
    | _ => False

/-- The answer is the oldest job that the agent may have, or `null` as there is none. -/
def HandsOut (op : QueueOp) : QueueAnswer → Prop
  | .job (some jobId) => ∃ row, s.Eligible js op row ∧ row.id = jobId ∧
      ∀ row', s.Eligible js op row' → row.createdAt ≤ row'.createdAt
  | .job none => ∀ row, ¬s.Eligible js op row
  -- An expression that does not compile.
  | _ => True

/-- Whoever asks for a job gets the oldest that the agent may have, from both. -/
def OldestFirst (order : OrderBy createdAt) : Prop :=
  ∀ op now t, op.dequeues = true → s.careful js ⟨op, now⟩ = true →
    twinStep js order s ⟨op, now⟩ = some t →
      ∀ answers ∈ t.answers.getLast?, s.HandsOut js op answers.1 ∧ s.HandsOut js op answers.2

end TwinState

/-- What a claim of the job that was found leaves. -/
def claimed (q : JobQueue) (db : Db) (now : ℕ) (agentId : Option String) : Option QueuedJob →
    Option QueuedJob × Db
  | some job => (some job, db.update (q.claimRowById now job.id agentId))
  | none => (none, db)

/-- What is kept of the rows: each has its own time of creation, none expires or is of a run that
has stopped, and their labels are in canonical form. -/
structure QueueRows (db : Db) (now : ℕ) : Prop where
  createdAt_inj : ∀ r ∈ db.dispatchQueue, ∀ r' ∈ db.dispatchQueue, r.createdAt = r'.createdAt → r = r'
  createdAt_le : ∀ r ∈ db.dispatchQueue, r.createdAt ≤ now
  unexpired : ∀ r ∈ db.dispatchQueue, r.expiresAt = none
  runsOnLabels : ∀ r ∈ db.dispatchQueue, js.canonicalizeLabels r.runsOnLabels = r.runsOnLabels
  excludeLabels : ∀ r ∈ db.dispatchQueue, js.canonicalizeLabels r.excludeLabels = r.excludeLabels
  runs : ∀ run ∈ db.executionRuns, run.2 ∉ TERMINAL_RUN_STATES ++ [ExecutionRunStatus.cancelling]

/-- What every call keeps. -/
structure Twin (s : TwinState) : Prop where
  rows : QueueRows js s.coord.db s.now
  jobs_iff : ∀ job, job ∈ s.worker.jobs ↔
    ∃ row ∈ s.coord.db.dispatchQueue, row.status = .pending ∧ rowToQueuedJob js row = job
  oldest : s.worker.jobs.rows.Pairwise fun a b => a.createdAt < b.createdAt
  dispatched : ∀ job ∈ s.worker.dispatched,
    ∃ row ∈ s.coord.db.dispatchQueue, row.status = .dispatched ∧ rowToQueuedJob js row = job
  attempts : ∀ row ∈ s.coord.db.dispatchQueue,
    row.status = .pending ∨ (s.worker.dispatched.lookup row.id).isSome = true →
      s.worker.attemptsOf row.id = row.dispatchAttempts
  attempts_none : ∀ jobId, s.coord.db.row? jobId = none → s.worker.attemptsOf jobId = 0
  stopped : s.worker.stopped = []
  deferred : s.coord.queue.deferredUnopenable = []
  few : s.coord.pending.length ≤ 10
  cache : ∀ cached, s.coord.depthCache = some cached → cached.1 ≤ 10
  maxDepth : 10 < s.coord.maxDepth
  agree : s.Agree

variable {js} {db : Db} {now now' : ℕ} {s : TwinState} {order : OrderBy createdAt} {row : DispatchRow}

namespace QueueRows

/-- An update that keeps what it is about. -/
theorem update (h : QueueRows js db now) (hnow : now ≤ now') {u : DispatchUpdate}
    (hset : ∀ r, (u.set r).createdAt = r.createdAt ∧ (u.set r).expiresAt = r.expiresAt ∧
      (u.set r).runsOnLabels = r.runsOnLabels ∧ (u.set r).excludeLabels = r.excludeLabels) :
    QueueRows js (db.update u) now' := by
  have hold : ∀ r' ∈ (db.update u).dispatchQueue, ∃ r ∈ db.dispatchQueue, r'.id = r.id ∧
    r'.createdAt = r.createdAt ∧
      r'.expiresAt = r.expiresAt ∧ r'.runsOnLabels = r.runsOnLabels ∧
        r'.excludeLabels = r.excludeLabels := by
    intro r' hr'
    obtain ⟨r, hr, rfl⟩ := mem_map.1 hr'
    refine ⟨r, hr, u.key_apply r, ?_⟩
    rw [apply]
    split
    · exact hset r
    · exact ⟨rfl, rfl, rfl, rfl⟩
  refine ⟨fun r hr r' hr' heq => ?_, fun r' hr' => ?_, fun r' hr' => ?_, fun r' hr' => ?_,
    fun r' hr' => ?_, h.runs⟩
  · obtain ⟨r₀, hr₀, hid, hcreated, -⟩ := hold r hr
    obtain ⟨r₁, hr₁, hid', hcreated', -⟩ := hold r' hr'
    have hsame := h.createdAt_inj r₀ hr₀ r₁ hr₁ (hcreated.symm.trans (heq.trans hcreated'))
    exact inj_on_of_nodup_map (db.update u).dispatchQueue.nodup hr hr' (by rw [hid, hid', hsame])
  · obtain ⟨r, hr, -, hcreated, -⟩ := hold r' hr'
    exact hcreated ▸ (h.createdAt_le r hr).trans hnow
  · obtain ⟨r, hr, -, -, hexp, -⟩ := hold r' hr'
    exact hexp ▸ h.unexpired r hr
  · obtain ⟨r, hr, -, -, -, hlabels, -⟩ := hold r' hr'
    exact hlabels ▸ h.runsOnLabels r hr
  · obtain ⟨r, hr, -, -, -, -, hlabels⟩ := hold r' hr'
    exact hlabels ▸ h.excludeLabels r hr

theorem mono (h : QueueRows js db now) (hnow : now ≤ now') : QueueRows js db now' :=
  { h with createdAt_le := fun r hr => (h.createdAt_le r hr).trans hnow }

/-- A new row. -/
theorem insert (h : QueueRows js db now) (hnow : now < now') (hcreated : row.createdAt = now')
    (hexp : row.expiresAt = none) (hlabels : js.canonicalizeLabels row.runsOnLabels = row.runsOnLabels)
    (hexclude : js.canonicalizeLabels row.excludeLabels = row.excludeLabels) :
    QueueRows js (db.insert row) now' := by
  have hlt : ∀ r ∈ db.dispatchQueue, r.createdAt < row.createdAt := fun r hr =>
    hcreated ▸ (h.createdAt_le r hr).trans_lt hnow
  refine ⟨fun r hr r' hr' heq => ?_, fun r hr => ?_, fun r hr => ?_, fun r hr => ?_,
    fun r hr => ?_, h.runs⟩
  · rcases mem_insertNew hr with hold | hnew <;> rcases mem_insertNew hr' with hold' | hnew'
    · exact h.createdAt_inj r hold r' hold' heq
    · exact absurd (hnew' ▸ heq) (hlt r hold).ne
    · exact absurd (hnew ▸ heq) (hlt r' hold').ne'
    · rw [hnew, hnew']
  all_goals rcases mem_insertNew hr with hr | rfl
  · exact (h.createdAt_le r hr).trans hnow.le
  · exact hcreated.le
  · exact h.unexpired r hr
  · exact hexp
  · exact h.runsOnLabels r hr
  · exact hlabels
  · exact h.excludeLabels r hr
  · exact hexclude

theorem notTerminalRun (h : QueueRows js db now) (r : DispatchRow) : db.notTerminalRun r := by
  rw [Db.notTerminalRun, Bool.not_eq_true', any_eq_false]
  intro run hrun
  simp [h.runs run hrun]

end QueueRows

namespace Twin

variable {job : QueuedJob} {cond : DispatchRow → Bool} {keep : QueuedJob → Bool} {t : TwinState}

section

variable (h : Twin js s)
include h

/-- The job of a row that is pending waits at the worker. -/
theorem mem_jobs (hrow : row ∈ s.coord.db.dispatchQueue) (hpending : row.status = .pending) :
    rowToQueuedJob js row ∈ s.worker.jobs := (h.jobs_iff _).2 ⟨row, hrow, hpending, rfl⟩

theorem row_of_mem (hjob : job ∈ s.worker.jobs) :
    ∃ row ∈ s.coord.db.dispatchQueue, row.status = .pending ∧ rowToQueuedJob js row = job :=
    (h.jobs_iff job).1 hjob

theorem status_of_mem (hjob : job ∈ s.worker.jobs) : job.status = .pending := by
  obtain ⟨row, -, hpending, rfl⟩ := h.row_of_mem hjob
  exact hpending

theorem waits (hjob : job ∈ s.worker.jobs) : s.worker.waits job := by
  simp [InMemoryJobQueue.waits, h.status_of_mem hjob, h.stopped]

/-- The rows that are read, the oldest first, are the jobs of the worker in the order of insertion. -/
theorem map_oldestFirst (order : OrderBy createdAt)
    (hcond : ∀ row ∈ s.coord.db.dispatchQueue,
      (cond row ↔ row.status = .pending ∧ keep (rowToQueuedJob js row))) :
    (oldestFirst order s.coord.db cond).map (rowToQueuedJob js) = s.worker.jobs.rows.filter keep := by
  let older (a b : QueuedJob) : Prop := a.createdAt < b.createdAt
  have hirrefl : Std.Irrefl older := ⟨fun _ => Nat.lt_irrefl _⟩
  have hantisymm : Std.Antisymm older := ⟨fun _ _ hab hba => absurd hba (Nat.lt_asymm hab)⟩
  have hnodup : (oldestFirst order s.coord.db cond).Nodup :=
    (order.perm _).nodup_iff.2 (s.coord.db.dispatchQueue.nodup.of_map.filter _)
  have hsorted : (oldestFirst order s.coord.db cond).Pairwise fun a b => a.createdAt < b.createdAt := by
    refine ((order.sorted _).and hnodup).imp_of_mem fun {a b} ha hb hab => ?_
    refine Nat.lt_of_le_of_ne hab.1 fun heq => hab.2 ?_
    exact h.rows.createdAt_inj a (mem_oldestFirst.1 ha).1 b (mem_oldestFirst.1 hb).1 heq
  have hmap : ((oldestFirst order s.coord.db cond).map (rowToQueuedJob js)).Pairwise older :=
    pairwise_map.2 hsorted
  refine hmap.eq_of_mem_iff (h.oldest.filter _) fun job => ?_
  rw [mem_map, mem_filter]
  constructor
  · rintro ⟨row, hrow, rfl⟩
    obtain ⟨hmem, hrow⟩ := mem_oldestFirst.1 hrow
    obtain ⟨hpending, hkeep⟩ := (hcond row hmem).1 hrow
    exact ⟨h.mem_jobs hmem hpending, hkeep⟩
  · rintro ⟨hjob, hkeep⟩
    obtain ⟨row, hmem, hpending, rfl⟩ := h.row_of_mem hjob
    exact ⟨row, mem_oldestFirst.2 ⟨hmem, (hcond row hmem).2 ⟨hpending, hkeep⟩⟩, rfl⟩

/-- So many jobs wait as there are pending rows. -/
theorem length_jobs : s.worker.jobs.rows.length = s.coord.pending.length := by
  have hmap : (oldestFirst createdAtOrder s.coord.db fun row => row.status = .pending).map
    (rowToQueuedJob js) =
      s.worker.jobs.rows.filter fun _ => true := h.map_oldestFirst createdAtOrder fun row _ => by simp
  have hlen := congrArg length hmap
  rw [length_map, filter_true] at hlen
  rw [← hlen]
  exact (createdAtOrder.perm _).length_eq

/-- The first ten rows that are read are all of them. -/
theorem take_oldestFirst (order : OrderBy createdAt)
    (hcond : ∀ row ∈ s.coord.db.dispatchQueue,
      (cond row ↔ row.status = .pending ∧ keep (rowToQueuedJob js row))) :
    (oldestFirst order s.coord.db cond).take 10 = oldestFirst order s.coord.db cond := by
  refine take_of_length_le ?_
  have hlen := congrArg length (h.map_oldestFirst order hcond)
  rw [length_map] at hlen
  rw [hlen]
  exact (length_filter_le _ _).trans (h.length_jobs.le.trans h.few)

/-- The labels and the gate, as the database compares them. -/
theorem labelsMatch_iff (hrow : row ∈ s.coord.db.dispatchQueue) (agentLabels gate : List String) :
    labelsMatch js agentLabels gate (rowToQueuedJob js row) ↔
      (∀ l ∈ row.runsOnLabels, l ∈ js.canonicalizeLabels agentLabels) ∧
        (∀ l ∈ row.excludeLabels, l ∉ js.canonicalizeLabels agentLabels) ∧
          ∀ l ∈ js.canonicalizeLabels gate, l ∈ row.runsOnLabels := by
  simp [labelsMatch, rowToQueuedJob, h.rows.runsOnLabels row hrow,
    h.rows.excludeLabels row hrow, and_assoc]

theorem notDeferred (now : ℕ) (jobId : String) :
    s.coord.queue.isDeferredUnopenable now jobId = false := by
  simp [isDeferredUnopenable, h.deferred]

theorem unexpired (hrow : row ∈ s.coord.db.dispatchQueue) :
    ∀ expiresAt ∈ row.expiresAt, s.coord.db.now ≤ expiresAt := by
  rw [h.rows.unexpired row hrow]
  intro expiresAt hexp
  cases hexp

/-- The condition that the ways of draining share, said of the job. -/
theorem drainBaseQuery_iff_labelsMatch (hrow : row ∈ s.coord.db.dispatchQueue) (now : ℕ)
    (agent : AgentQuery) : drainBaseQuery js s.coord.queue s.coord.db now agent row ↔
    row.status = .pending ∧
      labelsMatch js agent.agentLabels agent.agentMandatoryLabels (rowToQueuedJob js row) ∧
        pinAllows agent (rowToQueuedJob js row) := by
  have hgate : (∀ l ∈ js.canonicalizeLabels agent.agentMandatoryLabels, l ∈ row.runsOnLabels) ↔
      (js.canonicalizeLabels agent.agentMandatoryLabels ≠ [] →
        ∀ l ∈ js.canonicalizeLabels agent.agentMandatoryLabels, l ∈ row.runsOnLabels) :=
    ⟨fun hall _ => hall, fun hall l hl => hall (ne_nil_of_mem hl) l hl⟩
  have hpin : pinAllows agent (rowToQueuedJob js row) ↔ row.pinnedAgentId = none ∨
    agent.agentId ≠ some "" ∧
      agent.agentId.isSome ∧ row.pinnedAgentId = agent.agentId := by
    simp only [pinAllows, Bool.or_eq_true, Bool.and_eq_true, decide_eq_true_eq, and_assoc]
    exact Iff.rfl
  rw [h.labelsMatch_iff hrow, hpin, hgate]
  simp only [drainBaseQuery, decide_eq_true_eq]
  constructor
  · rintro ⟨hpending, -, hlabels, hexclude, hpin, hgate, -, -⟩
    exact ⟨hpending, ⟨hlabels, hexclude, hgate⟩, hpin⟩
  · rintro ⟨hpending, ⟨hlabels, hexclude, hgate⟩, hpin⟩
    exact ⟨hpending, h.unexpired hrow, hlabels, hexclude, hpin, hgate, h.rows.notTerminalRun row,
      h.notDeferred now _⟩

end

/-- The search through rows that are pending finds the first one that is admitted. -/
theorem claimFirst_eq (q : JobQueue) (now : ℕ) (agent : AgentQuery)
    (admits : QueuedJob → Except RegExpError Bool)
    {rows : List DispatchRow} (hrows : ∀ row ∈ rows, row ∈ db.dispatchQueue ∧ row.status = .pending) :
    claimFirst js q db now agent admits rows =
      (firstAdmitted admits (rows.map (rowToQueuedJob js))).map (claimed q db now agent.agentId) := by
  induction rows with
  | nil => rfl
  | cons row rows ih =>
    have hrest := ih fun r hr => hrows r (mem_cons_of_mem row hr)
    rw [map_cons]
    cases hv : admits (rowToQueuedJob js row) with
    | error err =>
      rw [firstAdmitted_cons_error hv]
      simp only [claimFirst, hv]
      rfl
    | ok admitted =>
      cases admitted with
      | false =>
        rw [firstAdmitted_cons_false hv, ← hrest]
        simp only [claimFirst, hv]
        rfl
      | true =>
        -- The row is still pending, so the claim succeeds.
        obtain ⟨hmem, hpending⟩ := hrows row mem_cons_self
        have hclaim : db.dispatchQueue.returning (q.claimRowById now row.id agent.agentId) ≠ [] := by
          refine ne_nil_of_mem (mem_returning.2 ⟨row, hmem, ?_, rfl⟩)
          simp [claimRowById, hpending]
        rw [firstAdmitted_cons_true hv]
        simp only [claimFirst, hv, if_pos hclaim, bind, Except.bind, if_true]
        rfl

/-- The worker hands out the first job that is admitted. -/
theorem takeFirst_eq (h : Twin js s) (admits : QueuedJob → Except RegExpError Bool) :
    s.worker.takeFirst admits = (firstAdmitted admits s.worker.jobs.rows).map s.worker.taken := by
  rw [InMemoryJobQueue.takeFirst]
  refine congrArg (Except.map _) (firstAdmitted_congr fun job hjob => ?_)
  rw [if_pos (h.waits hjob)]

/-- Two rows of one id are the same. -/
theorem row_eq {r r' : DispatchRow} (hr : r ∈ db.dispatchQueue) (hr' : r' ∈ db.dispatchQueue)
    (hid : r.id = r'.id) : r = r' := inj_on_of_nodup_map db.dispatchQueue.nodup hr hr' hid

/-- The rows after a claim: the one that is claimed, and all others as they were. -/
theorem mem_claim {q : JobQueue} {jobId : String} {agentId : Option String} {r' : DispatchRow} :
    r' ∈ (db.update (q.claimRowById now jobId agentId)).dispatchQueue ↔
      (∃ r ∈ db.dispatchQueue, r.id = jobId ∧ r.status = .pending ∧
        r' = q.claimTransition now agentId r) ∨
        r' ∈ db.dispatchQueue ∧ ¬(r'.id = jobId ∧ r'.status = .pending) := by
  have hguard : ∀ r, (q.claimRowById now jobId agentId).guard r ↔ r.id = jobId ∧ r.status = .pending :=
    fun r => decide_eq_true_iff
  constructor
  · intro hr'
    obtain ⟨r, hr, rfl⟩ := mem_map.1 hr'
    by_cases hg : r.id = jobId ∧ r.status = .pending
    · exact .inl ⟨r, hr, hg.1, hg.2, apply_of_guard ((hguard r).2 hg)⟩
    · have happly : (q.claimRowById now jobId agentId).apply r = r :=
        apply_of_not_guard (Bool.eq_false_iff.2 fun hgr => hg ((hguard r).1 hgr))
      rw [happly]
      exact .inr ⟨hr, hg⟩
  · rintro (⟨r, hr, hid, hpending, rfl⟩ | ⟨hr', hg⟩)
    · exact mem_map.2 ⟨r, hr, apply_of_guard ((hguard r).2 ⟨hid, hpending⟩)⟩
    · refine mem_map.2 ⟨r', hr', apply_of_not_guard (Bool.eq_false_iff.2 fun hgr => ?_)⟩
      exact hg ((hguard r').1 hgr)

theorem lookup_isSome_iff {κ ρ : Type} [DecidableEq κ] {key : ρ → κ} {t : Table key} {k : κ} :
    (t.lookup k).isSome ↔ ∃ r ∈ t, key r = k := by
  rw [Option.isSome_iff_exists]
  exact exists_congr fun r => lookup_eq_some

/-- A job goes to an agent on both sides. -/
theorem claim (h : Twin js s) (hnow : s.now ≤ now) (hjob : job ∈ s.worker.jobs)
    (agentId : Option String) (hworker : t.worker = s.worker.take job)
    (hcoord : t.coord = s.coord.withDb
      (s.coord.db.update (s.coord.queue.claimRowById now job.id agentId)))
    (ht : t.now = now) (hfew : t.coord.pending.length ≤ 10) (hagree : t.Agree) : Twin js t := by
  obtain ⟨row, hrow, hpending, hrowjob⟩ := h.row_of_mem hjob
  have hid : row.id = job.id := by rw [← hrowjob]; rfl
  have hdb : t.coord.db = s.coord.db.update (s.coord.queue.claimRowById now job.id agentId) := by
    rw [hcoord]; rfl
  have hjobs : t.worker.jobs = s.worker.jobs.delete job.id := by rw [hworker]; rfl
  have hdisp : t.worker.dispatched = s.worker.dispatched.put { job with status := .dispatched } := by
    rw [hworker]; rfl
  have hatt : ∀ jobId, t.worker.attemptsOf jobId = s.worker.attemptsOf jobId := by
    rw [hworker]; exact fun _ => rfl
  refine ⟨?_, fun x => ?_, ?_, fun x hx => ?_, fun r' hr' hor => ?_, fun jobId hnone => ?_, ?_,
    ?_, hfew, ?_, ?_, hagree⟩
  · rw [hdb, ht]
    exact h.rows.update hnow fun _ => ⟨rfl, rfl, rfl, rfl⟩
  · rw [hjobs, hdb, mem_delete]
    constructor
    · rintro ⟨hx, hne⟩
      obtain ⟨r, hr, hrp, rfl⟩ := h.row_of_mem hx
      exact ⟨r, mem_claim.2 (.inr ⟨hr, fun hg => hne hg.1⟩), hrp, rfl⟩
    · rintro ⟨r', hr', hrp, rfl⟩
      rcases mem_claim.1 hr' with ⟨r, -, -, -, rfl⟩ | ⟨hr, hnot⟩
      · cases hrp
      · exact ⟨h.mem_jobs hr hrp, fun heq => hnot ⟨heq, hrp⟩⟩
  · rw [hjobs]
    exact h.oldest.filter _
  · rw [hdisp, mem_put] at hx
    rw [hdb]
    rcases hx with rfl | ⟨hx, hne⟩
    · refine ⟨_, mem_claim.2 (.inl ⟨row, hrow, hid, hpending, rfl⟩), rfl, ?_⟩
      rw [← hrowjob]
      rfl
    · obtain ⟨r, hr, hrd, rfl⟩ := h.dispatched x hx
      refine ⟨r, mem_claim.2 (.inr ⟨hr, fun hg => ?_⟩), hrd, rfl⟩
      rw [hrd] at hg
      cases hg.2
  · rw [hdb] at hr'
    rw [hatt]
    rcases mem_claim.1 hr' with ⟨r, hr, -, hrp, rfl⟩ | ⟨hr, hnot⟩
    · exact h.attempts r hr (.inl hrp)
    · refine h.attempts r' hr (hor.imp_right fun hsome => ?_)
      rw [hdisp] at hsome
      obtain ⟨x, hx, hxid⟩ := lookup_isSome_iff.1 hsome
      rcases mem_put.1 hx with rfl | ⟨hx, -⟩
      · -- The row of the job is not among those that stay.
        have heq := row_eq hr hrow (hxid.symm.trans hid.symm)
        exact absurd ⟨heq ▸ hid, heq ▸ hpending⟩ hnot
      · exact lookup_isSome_iff.2 ⟨x, hx, hxid⟩
  · rw [hatt]
    refine h.attempts_none jobId ?_
    rw [hdb, Db.row?, Db.update, lookup_execute, Option.map_eq_none_iff] at hnone
    exact hnone
  · rw [hworker]
    exact h.stopped
  · rw [hcoord]
    exact h.deferred
  · rw [hcoord]
    exact h.cache
  · rw [hcoord]
    exact h.maxDepth

/-- One more answer in common. -/
theorem agree_append (h : Twin js s) {answer answer' : QueueAnswer} (heq : answer = answer')
    (ht : t.answers = s.answers ++ [(answer, answer')]) : t.Agree := by
  intro answers hmem
  rw [ht, mem_append, mem_singleton] at hmem
  rcases hmem with hmem | rfl
  · exact h.agree answers hmem
  · exact heq

/-- A call that changes neither queue. -/
theorem idle (h : Twin js s) (hnow : s.now ≤ t.now) (hworker : t.worker = s.worker)
    (hdb : t.coord.db = s.coord.db) (hqueue : t.coord.queue = s.coord.queue)
    (hcache : ∀ cached, t.coord.depthCache = some cached → cached.1 ≤ 10)
    (hmax : t.coord.maxDepth = s.coord.maxDepth) (hagree : t.Agree) : Twin js t := by
  refine ⟨?_, ?_, ?_, ?_, ?_, ?_, ?_, ?_, ?_, hcache, hmax ▸ h.maxDepth, hagree⟩
  · rw [hdb]
    exact h.rows.mono hnow
  · rw [hworker, hdb]
    exact h.jobs_iff
  · rw [hworker]
    exact h.oldest
  · rw [hworker, hdb]
    exact h.dispatched
  · rw [hworker, hdb]
    exact h.attempts
  · rw [hworker, hdb]
    exact h.attempts_none
  · rw [hworker]
    exact h.stopped
  · rw [hqueue]
    exact h.deferred
  · rw [CoordinatorQueue.pending, hdb]
    exact h.few

/-- Both dequeues have found the same. -/
theorem dequeued (h : Twin js s) (hnow : s.now ≤ now) {found : Except RegExpError (Option QueuedJob)}
    (hfound : ∀ job, found = .ok (some job) → job ∈ s.worker.jobs)
    {taken : Except RegExpError (Option QueuedJob × Db)} (agentId : Option String)
    (hanswer : jobAnswer taken = jobAnswer (found.map (claimed s.coord.queue s.coord.db now agentId)))
    (hafter : queueAfter s.coord.db taken =
      queueAfter s.coord.db (found.map (claimed s.coord.queue s.coord.db now agentId)))
    (hworker : t.worker = queueAfter s.worker (found.map s.worker.taken))
    (hcoord : t.coord = s.coord.withDb (queueAfter s.coord.db taken)) (ht : t.now = now)
    (hanswers : t.answers = s.answers ++ [(jobAnswer (found.map s.worker.taken), jobAnswer taken)])
    (hfew : t.coord.pending.length ≤ 10) : Twin js t := by
  rw [hafter] at hcoord
  rw [hanswer] at hanswers
  cases hf : found with
  | error e =>
    rw [hf] at hworker hcoord hanswers
    exact h.idle (ht ▸ hnow) hworker (by rw [hcoord]; rfl) (by rw [hcoord]; rfl)
      (by rw [hcoord]; exact h.cache)
      (by rw [hcoord]; rfl) (h.agree_append rfl hanswers)
  | ok job =>
    cases job with
    | none =>
      rw [hf] at hworker hcoord hanswers
      exact h.idle (ht ▸ hnow) hworker (by rw [hcoord]; rfl) (by rw [hcoord]; rfl)
        (by rw [hcoord]; exact h.cache)
        (by rw [hcoord]; rfl) (h.agree_append rfl hanswers)
    | some job =>
      rw [hf] at hworker hcoord hanswers
      exact h.claim hnow (hfound job hf) agentId hworker hcoord ht hfew (h.agree_append rfl hanswers)

/-- What the database finds among the rows that are read is what the worker finds among the jobs
they are. -/
theorem claimFirst_oldestFirst (h : Twin js s) (order : OrderBy createdAt) (now : ℕ) (agent : AgentQuery)
    (admits : QueuedJob → Except RegExpError Bool) (cond : DispatchRow → Bool) (keep : QueuedJob → Bool)
    (hcond : ∀ row ∈ s.coord.db.dispatchQueue,
      (cond row ↔ row.status = .pending ∧ keep (rowToQueuedJob js row))) :
    claimFirst js s.coord.queue s.coord.db now agent admits
    ((oldestFirst order s.coord.db cond).take 10) =
      (firstAdmitted admits (s.worker.jobs.rows.filter keep)).map
        (claimed s.coord.queue s.coord.db now agent.agentId) := by
  rw [h.take_oldestFirst order hcond, claimFirst_eq, h.map_oldestFirst order hcond]
  intro row hrow
  obtain ⟨hmem, hrow⟩ := mem_oldestFirst.1 hrow
  exact ⟨hmem, ((hcond row hmem).1 hrow).1⟩

/-- The worker searches the jobs whose labels the agent meets. -/
theorem worker_dequeueForLabels (h : Twin js s) (agent : AgentQuery)
    (canServe : Option (QueuedJob → Bool)) : s.worker.dequeueForLabels js agent canServe =
      (firstAdmitted (admitsFor js agent canServe) (s.candidates js agent)).map s.worker.taken := by
  rw [InMemoryJobQueue.dequeueForLabels, h.takeFirst_eq, TwinState.candidates]
  refine congrArg (Except.map _) ?_
  rw [firstAdmitted_filter (labelsMatch js agent.agentLabels agent.agentMandatoryLabels)]
  · refine firstAdmitted_congr fun job hjob => ?_
    rw [matchesGate, (mem_filter.1 hjob).2]
    rfl
  · intro job _ hlabels
    rw [matchesGate, hlabels]
    rfl

/-- The condition of the drain on jobs. -/
def drainKeep (js : JsRuntime) (agent : AgentQuery) (keep : QueuedJob → Bool) (job : QueuedJob) : Bool :=
  labelsMatch js agent.agentLabels agent.agentMandatoryLabels job && pinAllows agent job && keep job

/-- Where no job is pinned to another agent, the rows that are drained are the jobs that the worker
searches. -/
theorem filter_candidates (agent : AgentQuery) (hpins : (s.candidates js agent).all (pinAllows agent))
    (keep : QueuedJob → Bool) :
    s.worker.jobs.rows.filter (drainKeep js agent keep) = (s.candidates js agent).filter keep := by
  rw [TwinState.candidates, filter_filter]
  refine filter_congr fun job hjob => ?_
  rw [drainKeep]
  cases hlabels : labelsMatch js agent.agentLabels agent.agentMandatoryLabels job with
  | false => simp
  | true =>
    have hallowed := all_eq_true.1 hpins job (mem_filter.2 ⟨hjob, hlabels⟩)
    simp [hallowed]

theorem drain_cond (h : Twin js s) (now : ℕ) (agent : AgentQuery)
    (hcond : ∀ row, cond row = keep (rowToQueuedJob js row)) :
    ∀ row ∈ s.coord.db.dispatchQueue,
    ((drainBaseQuery js s.coord.queue s.coord.db now agent row && cond row) ↔
      row.status = .pending ∧ drainKeep js agent keep (rowToQueuedJob js row)) := by
  intro row hrow
  rw [drainKeep, Bool.and_eq_true, h.drainBaseQuery_iff_labelsMatch hrow, hcond, Bool.and_eq_true,
    Bool.and_eq_true, and_assoc, and_assoc]

theorem patternFree_eq (js : JsRuntime) (row : DispatchRow) :
    patternFree row = jobPatternFree (rowToQueuedJob js row) := by
  cases hp : row.runsOnPatterns <;> cases he : row.excludePatterns <;>
    simp [patternFree, jobPatternFree, rowToQueuedJob, hp, he]

theorem admitsFor_of_patternFree (agent : AgentQuery) (hfree : jobPatternFree job) :
    admitsFor js agent none job = .ok true := by
  obtain ⟨hp, he⟩ := Bool.and_eq_true_iff.1 hfree
  rw [admitsFor, jobPatternsSatisfiedBy, List.isEmpty_iff.1 hp, List.isEmpty_iff.1 he]
  rfl

theorem admitsFor_none (agent : AgentQuery) (job : QueuedJob) :
    admitsFor js agent none job = jobPatternsSatisfiedBy js job
    (js.canonicalizeLabels agent.agentLabels) := by
  rw [admitsFor]
  rcases jobPatternsSatisfiedBy js job (js.canonicalizeLabels agent.agentLabels) with e | (_ | _) <;> rfl

/-- A search with a test of the caller's own. -/
theorem coord_dequeue_some (h : Twin js s) (order : OrderBy createdAt) (now : ℕ) (agent : AgentQuery)
    (canServe : QueuedJob → Bool) (hpins : (s.candidates js agent).all (pinAllows agent)) :
    dequeueForLabels js s.coord.queue order s.coord.db now agent (some canServe) =
      (firstAdmitted (admitsFor js agent (some canServe)) (s.candidates js agent)).map
        (claimed s.coord.queue s.coord.db now agent.agentId) := by
  have h' := h.claimFirst_oldestFirst order now agent (admitsFor js agent (some canServe))
    (fun row => drainBaseQuery js s.coord.queue s.coord.db now agent row && true)
      (drainKeep js agent fun _ => true)
    (h.drain_cond now agent fun _ => rfl)
  rw [filter_candidates agent hpins, filter_true] at h'
  simp only [Bool.and_true] at h'
  exact h'

/-- A search without one. -/
theorem coord_dequeue_none (h : Twin js s) (order : OrderBy createdAt) (now : ℕ) (agent : AgentQuery)
    (hpins : (s.candidates js agent).all (pinAllows agent))
    (hfree : ((s.candidates js agent).head?.all jobPatternFree || (s.candidates js agent).all fun job =>
      !jobPatternFree job)) :
    jobAnswer (dequeueForLabels js s.coord.queue order s.coord.db now agent none) =
        jobAnswer ((firstAdmitted (admitsFor js agent none) (s.candidates js agent)).map
          (claimed s.coord.queue s.coord.db now agent.agentId)) ∧
      queueAfter s.coord.db (dequeueForLabels js s.coord.queue order s.coord.db now agent none) =
        queueAfter s.coord.db ((firstAdmitted (admitsFor js agent none) (s.candidates js agent)).map
          (claimed s.coord.queue s.coord.db now agent.agentId)) := by
  -- The rows without expressions, and those with some.
  have hwithout : (oldestFirst order s.coord.db fun row =>
      drainBaseQuery js s.coord.queue s.coord.db now agent row && patternFree row).map
        (rowToQueuedJob js) =
        (s.candidates js agent).filter jobPatternFree := by
    rw [← filter_candidates agent hpins]
    exact h.map_oldestFirst order (h.drain_cond now agent (patternFree_eq js))
  have hwith : claimWithPatterns js s.coord.queue order s.coord.db now agent =
      (firstAdmitted (admitsFor js agent none)
        ((s.candidates js agent).filter fun job => !jobPatternFree job)).map
        (claimed s.coord.queue s.coord.db now agent.agentId) := by
    have hnot : ∀ row, (!patternFree row) = !jobPatternFree (rowToQueuedJob js row) := fun row =>
      congrArg not (patternFree_eq js row)
    have h' := h.claimFirst_oldestFirst order now agent
      (fun job => jobPatternsSatisfiedBy js job (js.canonicalizeLabels agent.agentLabels)) _
      (drainKeep js agent fun job => !jobPatternFree job) (h.drain_cond now agent hnot)
    rw [filter_candidates agent hpins] at h'
    rw [firstAdmitted_congr fun job _ => admitsFor_none agent job]
    exact h'
  cases hcand : patternFreeCandidate js s.coord.queue order s.coord.db now agent with
  | none =>
    have hdequeue : dequeueForLabels js s.coord.queue order s.coord.db now agent none =
        claimWithPatterns js s.coord.queue order s.coord.db now agent := by
      rw [dequeueForLabels]
      simp only [returning_claimPatternFree_of_none hcand]
    have hnone : (s.candidates js agent).filter jobPatternFree = [] := by
      rw [patternFreeCandidate, head?_eq_none_iff] at hcand
      rw [← hwithout, hcand, map_nil]
    have hall : ((s.candidates js agent).filter fun job => !jobPatternFree job) =
      s.candidates js agent := by
      refine filter_eq_self.2 fun job hjob => ?_
      simpa using filter_eq_nil_iff.1 hnone job hjob
    rw [hdequeue, hwith, hall]
    exact ⟨rfl, rfl⟩
  | some row =>
    obtain ⟨⟨row', rows, hret, hid⟩, hupdate⟩ := returning_claimPatternFree_of_some hcand
    have hdequeue : dequeueForLabels js s.coord.queue order s.coord.db now agent none =
        .ok (some (rowToQueuedJob js row'),
          s.coord.db.update (s.coord.queue.claimRowById now row.id agent.agentId)) := by
      rw [dequeueForLabels]
      simp only [hret, hupdate]
      rfl
    obtain ⟨rest, hrest⟩ := head?_eq_some_iff.1 hcand
    rw [hrest, map_cons] at hwithout
    cases hcands : s.candidates js agent with
    | nil =>
      rw [hcands] at hwithout
      cases hwithout
    | cons job jobs =>
      rw [hcands] at hwithout hfree
      -- There is one without expressions, so the oldest is without.
      have hjob : jobPatternFree job := by
        rcases Bool.or_eq_true_iff.1 hfree with hhead | hall
        · exact hhead
        · have hmem : rowToQueuedJob js row ∈ (job :: jobs).filter jobPatternFree :=
            hwithout ▸ mem_cons_self
          obtain ⟨hmem, hrow⟩ := mem_filter.1 hmem
          have hnot := all_eq_true.1 hall _ hmem
          rw [hrow] at hnot
          cases hnot
      rw [filter_cons_of_pos hjob] at hwithout
      obtain ⟨heq, -⟩ := cons.inj hwithout
      rw [hdequeue, firstAdmitted_cons_true (admitsFor_of_patternFree agent hjob), ← heq]
      refine ⟨?_, rfl⟩
      exact congrArg (fun jobId => QueueAnswer.job (some jobId)) hid

/-- The search by labels finds the same on both sides. -/
theorem coord_dequeueForLabels (h : Twin js s) (order : OrderBy createdAt) (now : ℕ) (agent : AgentQuery)
    (canServe : Option (QueuedJob → Bool)) (hcareful : s.drains js agent canServe) :
    jobAnswer (dequeueForLabels js s.coord.queue order s.coord.db now agent canServe) =
        jobAnswer ((firstAdmitted (admitsFor js agent canServe) (s.candidates js agent)).map
          (claimed s.coord.queue s.coord.db now agent.agentId)) ∧
      queueAfter s.coord.db (dequeueForLabels js s.coord.queue order s.coord.db now agent canServe) =
        queueAfter s.coord.db ((firstAdmitted (admitsFor js agent canServe) (s.candidates js agent)).map
          (claimed s.coord.queue s.coord.db now agent.agentId)) := by
  obtain ⟨hpins, hfree⟩ := Bool.and_eq_true_iff.1 hcareful
  cases canServe with
  | none => exact h.coord_dequeue_none order now agent hpins (by simpa using hfree)
  | some canServe =>
    rw [h.coord_dequeue_some order now agent canServe hpins]
    exact ⟨rfl, rfl⟩

/-- What the worker finds of the jobs pinned to an agent. -/
theorem worker_dequeueByPinnedAgent (h : Twin js s) (agentId : String)
    (agentLabels : Option (List String)) : s.worker.dequeueByPinnedAgent js agentId agentLabels =
      (firstAdmitted (InMemoryJobQueue.pinAdmits js agentLabels) (s.pinnedTo agentId)).map
      s.worker.taken := by
  rw [InMemoryJobQueue.dequeueByPinnedAgent, h.takeFirst_eq, TwinState.pinnedTo]
  refine congrArg (Except.map _) ?_
  rw [firstAdmitted_filter fun job => job.pinnedAgentId = some agentId]
  · refine firstAdmitted_congr fun job hjob => ?_
    rw [if_pos (of_decide_eq_true (mem_filter.1 hjob).2)]
  · intro job _ hpin
    rw [if_neg (of_decide_eq_false hpin)]

/-- The database looks at the oldest one. -/
theorem coord_dequeueByPinnedAgent (h : Twin js s) (order : OrderBy createdAt) (now : ℕ)
    (agentId : String)
    (agentLabels : Option (List String)) (hcareful : s.drainsPinned js agentId agentLabels) :
    s.coord.dequeueByPinnedAgent js order now agentId agentLabels =
      (firstAdmitted (InMemoryJobQueue.pinAdmits js agentLabels) (s.pinnedTo agentId)).map
        (claimed s.coord.queue s.coord.db now (some agentId)) := by
  have hmap : (oldestFirst order s.coord.db fun row => row.status = .pending ∧
    row.pinnedAgentId = some agentId ∧
      (∀ expiresAt ∈ row.expiresAt, s.coord.db.now ≤ expiresAt) ∧ s.coord.db.notTerminalRun row ∧
        s.coord.queue.isDeferredUnopenable now row.id = false).map (rowToQueuedJob js) =
          s.pinnedTo agentId := by
    refine h.map_oldestFirst order fun row hrow => ?_
    rw [decide_eq_true_iff, decide_eq_true_iff]
    exact ⟨fun hc => ⟨hc.1, hc.2.1⟩, fun hc =>
      ⟨hc.1, hc.2, h.unexpired hrow, h.rows.notTerminalRun row, h.notDeferred now row.id⟩⟩
  rw [CoordinatorQueue.dequeueByPinnedAgent, selectPinned, claimFirst_eq, map_take, hmap]
  · refine congrArg (Except.map _) ?_
    cases hpinned : s.pinnedTo agentId with
    | nil => rfl
    | cons job jobs =>
      -- Without a look at the others, as the oldest is not refused or is the only one.
      rw [TwinState.drainsPinned, hpinned] at hcareful
      cases jobs with
      | nil => rfl
      | cons job' jobs =>
        have hkeeps : refuses (InMemoryJobQueue.pinAdmits js agentLabels job) = false := by
          simpa using hcareful
        cases hadmits : InMemoryJobQueue.pinAdmits js agentLabels job with
        | error e => simp [firstAdmitted, hadmits]
        | ok admitted =>
          cases admitted with
          | true => simp [firstAdmitted, hadmits]
          | false =>
            rw [hadmits] at hkeeps
            cases hkeeps
  · intro row hrow
    obtain ⟨hmem, hrow⟩ := mem_oldestFirst.1 (mem_of_mem_take hrow)
    exact ⟨hmem, (of_decide_eq_true hrow).1⟩

/-- What the worker finds of one job. -/
def foundById (js : JsRuntime) (s : TwinState) (jobId : String) (agentLabels gate : List String) :
    Except RegExpError (Option QueuedJob) :=
  match s.worker.jobs.lookup jobId with
  | none => .ok none
  | some job => (matchesGate js agentLabels gate job).map fun matched =>
    if matched then some job else none

theorem mem_of_foundById {jobId : String} {agentLabels gate : List String}
    (hfound : foundById js s jobId agentLabels gate = .ok (some job)) : job ∈ s.worker.jobs := by
  rw [foundById] at hfound
  split at hfound
  · cases hfound
  next job' hlookup =>
    rcases hgate : matchesGate js agentLabels gate job' with e | (_ | _)
    · rw [hgate] at hfound
      cases hfound
    · rw [hgate] at hfound
      cases hfound
    · rw [hgate] at hfound
      cases hfound
      exact (lookup_eq_some.1 hlookup).1

theorem worker_dequeueById (h : Twin js s) (jobId : String) (agentLabels gate : List String) :
    s.worker.dequeueById js jobId agentLabels gate =
      (foundById js s jobId agentLabels gate).map s.worker.taken := by
  rw [InMemoryJobQueue.dequeueById, foundById]
  cases hlookup : s.worker.jobs.lookup jobId with
  | none => rfl
  | some job =>
    simp only [h.waits (lookup_eq_some.1 hlookup).1, Bool.not_true, Bool.false_eq_true, if_false]
    cases matchesGate js agentLabels gate job <;> rfl

/-- The rows of the job that the database looks at. -/
theorem mem_selectById (h : Twin js s) (now : ℕ) (jobId : String) (agentLabels gate : List String) :
    row ∈ s.coord.queue.selectById js s.coord.db now jobId agentLabels gate ↔
    row ∈ s.coord.db.dispatchQueue ∧
      row.id = jobId ∧ row.status = .pending ∧
      labelsMatch js agentLabels gate (rowToQueuedJob js row) := by
  rw [selectById, mem_filter, decide_eq_true_iff]
  refine and_congr_right fun hrow => ?_
  rw [h.labelsMatch_iff hrow]
  constructor
  · rintro ⟨hid, hpending, -, hlabels, hexclude, hgate, -, -⟩
    exact ⟨hid, hpending, hlabels, hexclude, fun l hl => hgate (ne_nil_of_mem hl) l hl⟩
  · rintro ⟨hid, hpending, hlabels, hexclude, hgate⟩
    exact ⟨hid, hpending, h.unexpired hrow, hlabels, hexclude, fun _ => hgate, h.rows.notTerminalRun row,
      h.notDeferred now row.id⟩

theorem coord_dequeueById (h : Twin js s) (now : ℕ) (jobId : String) (agentLabels gate : List String)
    (agentId : Option String) : s.coord.dequeueById js now jobId agentLabels gate agentId =
      (foundById js s jobId agentLabels gate).map (claimed s.coord.queue s.coord.db now agentId) := by
  rw [CoordinatorQueue.dequeueById, claimFirst_eq, foundById]
  · cases hlookup : s.worker.jobs.lookup jobId with
    | none =>
      have hnil : s.coord.queue.selectById js s.coord.db now jobId agentLabels gate = [] := by
        refine eq_nil_iff_forall_not_mem.2 fun row hrow => ?_
        obtain ⟨hmem, hid, hpending, -⟩ := (h.mem_selectById now jobId agentLabels gate).1 hrow
        have hjob := lookup_of_mem (h.mem_jobs hmem hpending)
        have hkey : (rowToQueuedJob js row).id = jobId := hid
        rw [hkey, hlookup] at hjob
        cases hjob
      rw [hnil]
      rfl
    | some job =>
      obtain ⟨hjob, hid⟩ := lookup_eq_some.1 hlookup
      obtain ⟨row, hrow, hpending, rfl⟩ := h.row_of_mem hjob
      cases hlabels : labelsMatch js agentLabels gate (rowToQueuedJob js row) with
      | false =>
        have hnil : s.coord.queue.selectById js s.coord.db now jobId agentLabels gate = [] := by
          refine eq_nil_iff_forall_not_mem.2 fun row' hrow' => ?_
          obtain ⟨hmem, hid', -, hmatch⟩ := (h.mem_selectById now jobId agentLabels gate).1 hrow'
          rw [row_eq hmem hrow (hid'.trans hid.symm), hlabels] at hmatch
          cases hmatch
        simp only [hnil, matchesGate, hlabels]
        rfl
      | true =>
        have hone : s.coord.queue.selectById js s.coord.db now jobId agentLabels gate = [row] := by
          have hnodup : (s.coord.queue.selectById js s.coord.db now jobId agentLabels gate).Nodup :=
            s.coord.db.dispatchQueue.nodup.of_map.filter _
          refine perm_singleton.1 ((perm_ext_iff_of_nodup hnodup (nodup_singleton row)).2 fun row' => ?_)
          rw [h.mem_selectById, mem_singleton]
          constructor
          · rintro ⟨hmem, hid', -⟩
            exact row_eq hmem hrow (hid'.trans hid.symm)
          · rintro rfl
            exact ⟨hrow, hid, hpending, hlabels⟩
        simp only [hone, matchesGate, hlabels, map_singleton, firstAdmitted]
        rcases jobPatternsSatisfiedBy js (rowToQueuedJob js row) (js.canonicalizeLabels agentLabels) with
          e | (_ | _) <;> rfl
  · intro row hrow
    obtain ⟨hmem, -, hpending, -⟩ := (h.mem_selectById now jobId agentLabels gate).1 hrow
    exact ⟨hmem, hpending⟩

end Twin

end Kici.Worker
