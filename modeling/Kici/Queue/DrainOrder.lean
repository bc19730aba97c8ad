import Kici.Queue.QueueSystem

/-!
# What a drain takes

Whether the drain takes the oldest job that an agent may run
(`JobQueue.claimsOldest_iff_drainSafe`), and the only one that is pending
(`JobQueue.dequeueForLabels_iff_admits`).
-/

/-!
## The order of the drain

`dequeueForLabels` is to claim the oldest job an agent may run
(`JobQueue.ClaimsOldest`, by `JobQueue.Admits`). It does so exactly under a condition
on the queue (`JobQueue.DrainSafe`), as

* a row without regular expressions is claimed before all older ones that have them;
* of the other rows, and of all rows where the caller has a predicate of its own,
  only the ten oldest are looked at;
* an expression that does not compile ends the search.

The search through rows read before is `JobQueue.claimFirst`; what it can do is said
once (`claimFirst_cases`).
-/

namespace Kici.JobQueue

open List Bool

variable (js : JsRuntime) (q : JobQueue) (order : OrderBy DispatchRow.createdAt) (db : Db)
  (now : ℕ) (agent : AgentQuery)

/-! ### What the drain is to do -/

/-- Whether a row is one an agent may be given, its regular expressions and the caller's
predicate left aside. -/
structure Eligible (row : DispatchRow) : Prop where
  pending : row.status = .pending
  unexpired : ∀ expiresAt ∈ row.expiresAt, db.now ≤ expiresAt
  labels : row.runsOnLabels ⊆ js.canonicalizeLabels agent.agentLabels
  excludes : ∀ l ∈ row.excludeLabels, l ∉ js.canonicalizeLabels agent.agentLabels
  pin : ∀ pinned ∈ row.pinnedAgentId, agent.agentId = some pinned ∧ pinned ≠ ""
  gate : js.canonicalizeLabels agent.agentMandatoryLabels ⊆ row.runsOnLabels
  runs : db.notTerminalRun row
  notDeferred : q.isDeferredUnopenable now row.id = false

/-- What the regular expressions of a row, and the caller's predicate, say of an agent. -/
def verdict (canServe : Option (QueuedJob → Bool)) (row : DispatchRow) :
    Except RegExpError Bool := do
  let job := rowToQueuedJob js row
  let satisfied ← jobPatternsSatisfiedBy js job (js.canonicalizeLabels agent.agentLabels)
  return satisfied && canServe.all fun canServe => canServe job

/-- Whether the agent may be given the job of a row. -/
def Admits (canServe : Option (QueuedJob → Bool)) (row : DispatchRow) : Prop :=
  Eligible js q db now agent row ∧ verdict js agent canServe row = .ok true

/-- The drain claimed the oldest job the agent may be given, or there is none. -/
def ClaimsOldest (canServe : Option (QueuedJob → Bool)) :
    Except RegExpError (Option QueuedJob × Db) → Prop
  | .ok (some job, db') => ∃ row ∈ db.dispatchQueue, Admits js q db now agent canServe row ∧
      (∀ row' ∈ db.dispatchQueue, Admits js q db now agent canServe row' →
        row.createdAt ≤ row'.createdAt) ∧
      job.id = row.id ∧ db' = db.update (q.claimRowById now row.id agent.agentId)
  | .ok (none, db') => db' = db ∧ ∀ row ∈ db.dispatchQueue, ¬Admits js q db now agent canServe row
  | .error _ => False

/-- The ten oldest of the eligible rows that meet a condition are enough: one of them is
admitted if any is, and none whose expressions do not compile comes before it. -/
structure ScanSafe (canServe : Option (QueuedJob → Bool)) (cond : DispatchRow → Bool) : Prop where
  covers : (∃ row ∈ db.dispatchQueue, cond row ∧ Admits js q db now agent canServe row) →
    ∃ row ∈ (oldestFirst order db fun row => drainBaseQuery js q db now agent row && cond row).take 10,
      verdict js agent canServe row = .ok true
  compiles : ∀ before row after,
    (oldestFirst order db fun row => drainBaseQuery js q db now agent row && cond row).take 10 =
      before ++ row :: after → (∃ err, verdict js agent canServe row = .error err) →
    ∃ row' ∈ before, verdict js agent canServe row' = .ok true

/-- The condition under which the drain does what it is to do. -/
def DrainSafe (canServe : Option (QueuedJob → Bool)) : Prop :=
  if canServe.isSome then ScanSafe js q order db now agent canServe fun _ => true
  else
    ((∃ row ∈ db.dispatchQueue, Eligible js q db now agent row ∧ patternFree row) →
      ∀ row ∈ db.dispatchQueue, Admits js q db now agent none row →
        ∃ row' ∈ db.dispatchQueue, Eligible js q db now agent row' ∧ patternFree row' ∧
          row'.createdAt ≤ row.createdAt) ∧
    ((∀ row ∈ db.dispatchQueue, Eligible js q db now agent row → patternFree row = false) →
      ScanSafe js q order db now agent none fun row => !patternFree row)

variable {js q order db now agent} {canServe : Option (QueuedJob → Bool)} {row : DispatchRow}

/-- The shared `WHERE` of the ways of draining selects the eligible rows. -/
theorem drainBaseQuery_iff :
    drainBaseQuery js q db now agent row ↔ Eligible js q db now agent row := by
  simp only [drainBaseQuery, decide_eq_true_eq]
  constructor
  · rintro ⟨hpending, hexp, hlabels, hexcl, hpin, hgate, hrun, hdef⟩
    refine ⟨hpending, hexp, hlabels, hexcl, fun pinned hp => ?_, fun l hl => ?_, hrun, hdef⟩
    · rcases hpin with hnone | ⟨hne, _, heq⟩
      · rw [hnone] at hp
        cases hp
      · rw [hp] at heq
        exact ⟨heq.symm, fun h => hne (by rw [← heq, h])⟩
    · exact hgate (ne_nil_of_mem hl) l hl
  · intro h
    refine ⟨h.pending, h.unexpired, fun l hl => h.labels hl, h.excludes, ?_,
      fun _ l hl => h.gate hl, h.runs, h.notDeferred⟩
    cases hp : row.pinnedAgentId with
    | none => exact .inl rfl
    | some pinned =>
      obtain ⟨heq, hne⟩ := h.pin pinned hp
      exact .inr ⟨by simpa [heq] using hne, by simp [heq], heq.symm⟩

/-- A row without regular expressions has nothing to say of an agent. -/
theorem verdict_of_patternFree (h : patternFree row) : verdict js agent none row = .ok true := by
  simp only [patternFree, decide_eq_true_eq] at h
  simp [verdict, jobPatternsSatisfiedBy, rowToQueuedJob, h]
  rfl

/-! ### The search through rows read before -/

/-- The search admits no row, claims the first one that is not refused, or throws there. -/
theorem claimFirst_cases (js : JsRuntime) (q : JobQueue) (now : ℕ) (agent : AgentQuery)
    (admits : QueuedJob → Except RegExpError Bool) {rows : List DispatchRow}
    (hrows : ∀ row ∈ rows, row ∈ db.dispatchQueue ∧ row.status = .pending) :
    (claimFirst js q db now agent admits rows = .ok (none, db) ∧
      ∀ row ∈ rows, admits (rowToQueuedJob js row) = .ok false) ∨
    ∃ before row after, rows = before ++ row :: after ∧
      (∀ row' ∈ before, admits (rowToQueuedJob js row') = .ok false) ∧
      ((admits (rowToQueuedJob js row) = .ok true ∧
          claimFirst js q db now agent admits rows = .ok (some (rowToQueuedJob js row),
            db.update (q.claimRowById now row.id agent.agentId))) ∨
        ∃ err, admits (rowToQueuedJob js row) = .error err ∧
          claimFirst js q db now agent admits rows = .error err) := by
  induction rows with
  | nil => exact .inl ⟨rfl, by simp⟩
  | cons row rows ih =>
    cases hv : admits (rowToQueuedJob js row) with
    | error err =>
      refine .inr ⟨[], row, rows, rfl, by simp, .inr ⟨err, hv, ?_⟩⟩
      simp only [claimFirst, hv]
      rfl
    | ok b =>
      cases b with
      | true =>
        -- The row is still pending, so the claim succeeds.
        obtain ⟨hmem, hpending⟩ := hrows row mem_cons_self
        have hclaim : db.dispatchQueue.returning (q.claimRowById now row.id agent.agentId) ≠ [] := by
          refine ne_nil_of_mem (Table.mem_returning.2 ⟨row, hmem, ?_, rfl⟩)
          simp [claimRowById, hpending]
        refine .inr ⟨[], row, rows, rfl, by simp, .inl ⟨hv, ?_⟩⟩
        simp only [claimFirst, hv, if_pos hclaim, bind, Except.bind, if_true]
        rfl
      | false =>
        have hfirst : claimFirst js q db now agent admits (row :: rows) =
            claimFirst js q db now agent admits rows := by
          simp only [claimFirst, hv]
          rfl
        rw [hfirst]
        rcases ih fun r hr => hrows r (mem_cons_of_mem _ hr) with ⟨hnone, hall⟩ |
            ⟨before, r, after, heq, hbefore, h⟩
        · exact .inl ⟨hnone, by simpa [hv] using hall⟩
        · exact .inr ⟨row :: before, r, after, by rw [heq, cons_append],
            by simpa [hv] using hbefore, h⟩

theorem mem_oldestFirst {cond : DispatchRow → Bool} :
    row ∈ oldestFirst order db cond ↔ row ∈ db.dispatchQueue ∧ cond row := by
  rw [oldestFirst, (order.perm _).mem_iff, mem_filter]
  rfl

/-- The search through the ten oldest rows of a kind does what the drain is to do if and
only if they are enough, where all the rows the agent may be given are of that kind. -/
theorem claimFirst_claimsOldest_iff {admits : QueuedJob → Except RegExpError Bool}
    {cond : DispatchRow → Bool}
    (hadmits : ∀ row, admits (rowToQueuedJob js row) = verdict js agent canServe row)
    (hcond : ∀ row ∈ db.dispatchQueue, Admits js q db now agent canServe row → cond row) :
    ClaimsOldest js q db now agent canServe (claimFirst js q db now agent admits
      ((oldestFirst order db fun row => drainBaseQuery js q db now agent row && cond row).take 10)) ↔
      ScanSafe js q order db now agent canServe cond := by
  set full := oldestFirst order db fun row => drainBaseQuery js q db now agent row && cond row
    with hfull
  have hmem : ∀ {row}, row ∈ full ↔
      row ∈ db.dispatchQueue ∧ Eligible js q db now agent row ∧ cond row := by
    intro row
    rw [hfull, mem_oldestFirst, and_eq_true, drainBaseQuery_iff]
  have hsorted : full.Pairwise fun r s => r.createdAt ≤ s.createdAt := order.sorted _
  have hrows : ∀ row ∈ full.take 10, row ∈ db.dispatchQueue ∧ row.status = .pending := by
    intro row hrow
    obtain ⟨hr, helig, _⟩ := hmem.1 (mem_of_mem_take hrow)
    exact ⟨hr, helig.pending⟩
  -- A row of the batch that is not refused is admitted.
  have hadm : ∀ row ∈ full.take 10, verdict js agent canServe row = .ok true →
      Admits js q db now agent canServe row := fun row hrow hv =>
    ⟨(hmem.1 (mem_of_mem_take hrow)).2.1, hv⟩
  rcases claimFirst_cases js q now agent admits hrows with ⟨hnone, hall⟩ |
      ⟨before, row, after, heq, hbefore, ⟨hv, hsome⟩ | ⟨err, hv, herr⟩⟩
  · -- All of the batch is refused.
    simp only [hadmits] at hall
    rw [hnone]
    constructor
    · rintro ⟨-, hno⟩
      refine ⟨fun ⟨row, hrow, _, hadmit⟩ => absurd hadmit (hno row hrow), ?_⟩
      rintro before row after heq ⟨err, herr⟩
      rw [hall row (by rw [heq]; simp)] at herr
      cases herr
    · intro hsafe
      refine ⟨rfl, fun row hrow hadmit => ?_⟩
      obtain ⟨row', hrow', hv⟩ := hsafe.covers ⟨row, hrow, hcond row hrow hadmit, hadmit⟩
      rw [hall row' hrow'] at hv
      cases hv
  · -- The first row of the batch that is not refused is admitted, and claimed.
    simp only [hadmits] at hbefore hv
    rw [hsome]
    have hbatch : row ∈ full.take 10 := by rw [heq]; simp
    refine ⟨fun _ => ⟨fun _ => ⟨row, hbatch, hv⟩, ?_⟩, fun _ => ?_⟩
    · rintro before' row' after' heq' ⟨err, herr⟩
      rcases append_eq_append_iff.1 (heq.symm.trans heq') with
        ⟨m, rfl, hm⟩ | ⟨m, rfl, hm⟩
      · cases m with
        | nil =>
          obtain ⟨rfl, -⟩ := cons.inj hm
          rw [hv] at herr
          cases herr
        | cons x m =>
          obtain ⟨rfl, -⟩ := cons.inj hm
          exact ⟨row, by simp, hv⟩
      · cases m with
        | nil =>
          obtain ⟨rfl, -⟩ := cons.inj hm
          rw [hv] at herr
          cases herr
        | cons x m =>
          obtain ⟨rfl, -⟩ := cons.inj hm
          rw [hbefore row' (by simp)] at herr
          cases herr
    · refine ⟨row, (hrows row hbatch).1, hadm row hbatch hv, fun row' hrow' hadmit => ?_, rfl, rfl⟩
      -- The rows that are older were refused.
      have hfull' : row' ∈ full := hmem.2 ⟨hrow', hadmit.1, hcond row' hrow' hadmit⟩
      rw [← take_append_drop 10 full, heq, append_assoc, cons_append] at hfull' hsorted
      rw [pairwise_append, pairwise_cons] at hsorted
      rcases mem_append.1 hfull' with h | h
      · have hv' := hadmit.2
        rw [hbefore row' h] at hv'
        cases hv'
      · rcases mem_cons.1 h with rfl | h
        · exact Nat.le_refl _
        · exact hsorted.2.1.1 row' h
  · -- The first row of the batch that is not refused throws.
    simp only [hadmits] at hbefore hv
    rw [herr]
    refine ⟨False.elim, fun hsafe => ?_⟩
    obtain ⟨row', hrow', hv'⟩ := hsafe.compiles before row after heq ⟨err, hv⟩
    rw [hbefore row' hrow'] at hv'
    cases hv'

/-- The candidate of the pattern-free claim is an oldest eligible row without regular
expressions. -/
theorem patternFreeCandidate_eq_some (h : patternFreeCandidate js q order db now agent = some row) :
    row ∈ db.dispatchQueue ∧ Eligible js q db now agent row ∧ patternFree row ∧
      ∀ row' ∈ db.dispatchQueue, Eligible js q db now agent row' → patternFree row' →
        row.createdAt ≤ row'.createdAt := by
  set cond : DispatchRow → Bool := fun row => drainBaseQuery js q db now agent row && patternFree row
  obtain ⟨rest, hrest⟩ := head?_eq_some_iff.1 h
  have hsorted : (oldestFirst order db cond).Pairwise fun r s => r.createdAt ≤ s.createdAt :=
    order.sorted _
  have hmem : row ∈ oldestFirst order db cond := by rw [hrest]; exact mem_cons_self
  obtain ⟨hr, hcond⟩ := mem_oldestFirst.1 hmem
  rw [and_eq_true, drainBaseQuery_iff] at hcond
  refine ⟨hr, hcond.1, hcond.2, fun row' hr' helig hfree => ?_⟩
  have hmem' : row' ∈ oldestFirst order db cond :=
    mem_oldestFirst.2 ⟨hr', by rw [and_eq_true, drainBaseQuery_iff]; exact ⟨helig, hfree⟩⟩
  rw [hrest] at hmem' hsorted
  rcases mem_cons.1 hmem' with rfl | h'
  · exact Nat.le_refl _
  · exact (pairwise_cons.1 hsorted).1 row' h'

theorem patternFreeCandidate_eq_none (h : patternFreeCandidate js q order db now agent = none) :
    ∀ row ∈ db.dispatchQueue, Eligible js q db now agent row → patternFree row = false := by
  intro row hr helig
  by_contra hfree
  have hmem : row ∈ oldestFirst order db fun row =>
      drainBaseQuery js q db now agent row && patternFree row := by
    refine mem_oldestFirst.2 ⟨hr, ?_⟩
    rw [and_eq_true, drainBaseQuery_iff]
    exact ⟨helig, by simpa using hfree⟩
  rw [patternFreeCandidate, head?_eq_none_iff] at h
  rw [h] at hmem
  cases hmem

/-- Without a candidate the pattern-free claim changes no row. -/
theorem returning_claimPatternFree_of_none (h : patternFreeCandidate js q order db now agent = none) :
    db.dispatchQueue.returning (claimPatternFree js q order db now agent) = [] := by
  refine eq_nil_iff_forall_not_mem.2 fun row hrow => ?_
  obtain ⟨r, -, hg, -⟩ := Table.mem_returning.1 hrow
  simp [claimPatternFree, h] at hg

/-- The pattern-free claim claims its candidate, as a claim by id would. -/
theorem returning_claimPatternFree_of_some
    (h : patternFreeCandidate js q order db now agent = some row) :
    (∃ row' rows, db.dispatchQueue.returning (claimPatternFree js q order db now agent) =
      row' :: rows ∧ row'.id = row.id) ∧
    db.update (claimPatternFree js q order db now agent) =
      db.update (q.claimRowById now row.id agent.agentId) := by
  have hclaim : claimPatternFree js q order db now agent =
      q.claimRowById now row.id agent.agentId := by
    have hguard : (claimPatternFree js q order db now agent).guard =
        (q.claimRowById now row.id agent.agentId).guard := by
      funext r
      simp [claimPatternFree, claimRowById, h, eq_comm]
    rw [claimPatternFree, claimRowById] at hguard ⊢
    simp only at hguard
    congr 1
  obtain ⟨hr, helig, -⟩ := patternFreeCandidate_eq_some h
  refine ⟨?_, by rw [hclaim]⟩
  cases hret : db.dispatchQueue.returning (claimPatternFree js q order db now agent) with
  | nil =>
    have hmem : q.claimTransition now agent.agentId row ∈ db.dispatchQueue.returning
        (claimPatternFree js q order db now agent) := by
      rw [hclaim]
      exact Table.mem_returning.2 ⟨row, hr, by simp [claimRowById, helig.pending], rfl⟩
    rw [hret] at hmem
    cases hmem
  | cons row' rows =>
    have hmem : row' ∈ db.dispatchQueue.returning (claimPatternFree js q order db now agent) := by
      rw [hret]
      exact mem_cons_self
    rw [hclaim] at hmem
    obtain ⟨r, -, hg, rfl⟩ := Table.mem_returning.1 hmem
    refine ⟨_, _, rfl, ?_⟩
    simp only [claimRowById, decide_eq_true_eq] at hg
    exact hg.1

/-- With a pattern-free candidate, the drain does what it is to do if and only if no row
with regular expressions goes before. -/
theorem claimsOldest_iff_of_candidate (h : patternFreeCandidate js q order db now agent = some row) :
    ClaimsOldest js q db now agent none (dequeueForLabels js q order db now agent none) ↔
      ∀ row ∈ db.dispatchQueue, Admits js q db now agent none row →
        ∃ row' ∈ db.dispatchQueue, Eligible js q db now agent row' ∧ patternFree row' ∧
          row'.createdAt ≤ row.createdAt := by
  obtain ⟨⟨row', rows, hret, hid⟩, hupd⟩ := returning_claimPatternFree_of_some h
  obtain ⟨hr, helig, hfree, holdest⟩ := patternFreeCandidate_eq_some h
  have hadmits : Admits js q db now agent none row := ⟨helig, verdict_of_patternFree hfree⟩
  have hdrain : dequeueForLabels js q order db now agent none = .ok (some (rowToQueuedJob js row'),
      db.update (q.claimRowById now row.id agent.agentId)) := by
    simp only [dequeueForLabels, hret, hupd]
    rfl
  rw [hdrain]
  constructor
  · rintro ⟨r, hrmem, hradm, hrold, hrid, -⟩
    -- The row claimed is the candidate, as the two have the same id.
    obtain rfl : r = row := inj_on_of_nodup_map db.dispatchQueue.nodup hrmem hr
      (hrid.symm.trans hid)
    exact fun r' hr' hadm' => ⟨r, hr, helig, hfree, hrold r' hr' hadm'⟩
  · intro hsafe
    refine ⟨row, hr, hadmits, fun r hrmem hradm => ?_, hid, rfl⟩
    obtain ⟨r', hr', helig', hfree', hle⟩ := hsafe r hrmem hradm
    exact Nat.le_trans (holdest r' hr' helig' hfree') hle

/-- The drain does what it is to do if and only if the queue meets the condition. -/
theorem claimsOldest_iff_drainSafe : ClaimsOldest js q db now agent canServe
    (dequeueForLabels js q order db now agent canServe) ↔
      DrainSafe js q order db now agent canServe := by
  cases canServe with
  | some f =>
    have := @claimFirst_claimsOldest_iff js q order db now agent (some f)
      (fun job => do return (← jobPatternsSatisfiedBy js job
        (js.canonicalizeLabels agent.agentLabels)) && f job) (fun _ => true)
      (fun _ => rfl) fun _ _ _ => rfl
    simpa [DrainSafe, dequeueForLabels, claimWithPostFilter] using this
  | none =>
    simp only [DrainSafe, Option.isSome_none, false_eq_true, if_false]
    cases hcand : patternFreeCandidate js q order db now agent with
    | some row =>
      obtain ⟨hr, helig, hfree, -⟩ := patternFreeCandidate_eq_some hcand
      rw [claimsOldest_iff_of_candidate hcand]
      refine ⟨fun h => ⟨fun _ => h, fun hno => ?_⟩, fun h => h.1 ⟨row, hr, helig, hfree⟩⟩
      rw [hno row hr helig] at hfree
      cases hfree
    | none =>
      have hno := patternFreeCandidate_eq_none hcand
      have hscan := @claimFirst_claimsOldest_iff js q order db now agent none
        (fun job => jobPatternsSatisfiedBy js job (js.canonicalizeLabels agent.agentLabels))
        (fun row => !patternFree row)
        (fun row => by
          simp only [verdict, Option.all_none, Bool.and_true]
          exact (bind_pure _).symm)
        fun row hr hadm => by rw [hno row hr hadm.1]; rfl
      have hdrain : dequeueForLabels js q order db now agent none =
          claimWithPatterns js q order db now agent := by
        simp only [dequeueForLabels, returning_claimPatternFree_of_none hcand]
      rw [hdrain]
      refine hscan.trans ⟨fun h => ⟨?_, fun _ => h⟩, fun h => h.2 hno⟩
      rintro ⟨row, hr, helig, hfree⟩
      rw [hno row hr helig] at hfree
      cases hfree

/-- A predicate that accepts every job changes nothing of what the agent may be given. -/
theorem admits_acceptAll :
    Admits js q db now agent (some fun _ => true) row ↔ Admits js q db now agent none row := by
  simp [Admits, verdict]

/-- Where the drain does what it is to do for two predicates that admit the same rows, it
claims the same row for both, if no two rows were created at the same time. -/
theorem ClaimsOldest.congr {canServe' : Option (QueuedJob → Bool)}
    {out out' : Except RegExpError (Option QueuedJob × Db)}
    (hout : ClaimsOldest js q db now agent canServe out)
    (hout' : ClaimsOldest js q db now agent canServe' out')
    (hadmits : ∀ row, Admits js q db now agent canServe row ↔ Admits js q db now agent canServe' row)
    (hdistinct : (db.dispatchQueue.rows.map DispatchRow.createdAt).Nodup) :
    out.map (fun o => (o.1.map QueuedJob.id, o.2)) =
      out'.map fun o => (o.1.map QueuedJob.id, o.2) := by
  rcases out with err | ⟨_ | job, db₁⟩ <;> rcases out' with err' | ⟨_ | job', db₂⟩
  case error.error | error.ok.none | error.ok.some => exact hout.elim
  case ok.none.error | ok.some.error => exact hout'.elim
  case ok.none.ok.none =>
    rw [hout.1, hout'.1]
  case ok.none.ok.some =>
    obtain ⟨row, hrow, hadm, -⟩ := hout'
    exact absurd ((hadmits row).2 hadm) (hout.2 row hrow)
  case ok.some.ok.none =>
    obtain ⟨row, hrow, hadm, -⟩ := hout
    exact absurd ((hadmits row).1 hadm) (hout'.2 row hrow)
  case ok.some.ok.some =>
    obtain ⟨row, hrow, hadm, hold, hid, rfl⟩ := hout
    obtain ⟨row', hrow', hadm', hold', hid', rfl⟩ := hout'
    -- Each of the two rows is at least as old as the other.
    have hat : row.createdAt = row'.createdAt := Nat.le_antisymm
      (hold row' hrow' ((hadmits row').2 hadm')) (hold' row hrow ((hadmits row).1 hadm))
    obtain rfl := inj_on_of_nodup_map hdistinct hrow hrow' hat
    simp [Except.map, hid, hid']

variable (js q order db now agent) in
/-- The drain claims the oldest job the agent may be given, for a predicate or none,
exactly under its condition; where it holds for none as for one that accepts every
job, the two claim the same row of those created at different times. -/
theorem dequeueForLabels_claimsOldest :
    (∀ canServe, ClaimsOldest js q db now agent canServe
      (dequeueForLabels js q order db now agent canServe) ↔
        DrainSafe js q order db now agent canServe) ∧
    (DrainSafe js q order db now agent none →
      DrainSafe js q order db now agent (some fun _ => true) →
      (db.dispatchQueue.rows.map DispatchRow.createdAt).Nodup →
      (dequeueForLabels js q order db now agent none).map (fun o => (o.1.map QueuedJob.id, o.2)) =
        (dequeueForLabels js q order db now agent (some fun _ => true)).map
          fun o => (o.1.map QueuedJob.id, o.2)) := by
  refine ⟨fun _ => claimsOldest_iff_drainSafe, fun hnone hall hdistinct => ?_⟩
  exact (claimsOldest_iff_drainSafe.2 hnone).congr (claimsOldest_iff_drainSafe.2 hall)
    (fun _ => admits_acceptAll.symm) hdistinct

/-- A pending row for agents with a label that matches an expression. -/
def patternRow (id source : String) (createdAt : ℕ) : DispatchRow where
  id
  runId := "run"
  jobName := id
  runsOnPatterns := [.regex source ""]
  status := .pending
  createdAt

/-- A queue with one job. -/
def singleDb : Db where
  dispatchQueue := ⟨[patternRow "job" "linux" 1], by decide⟩
  executionRuns := []
  clusterInstances := []
  now := 3

/-- Where the rows of the queue are few, and each that is of the kind satisfies the
expressions, they are enough. -/
theorem scanSafe_of_forall {cond : DispatchRow → Bool} (hfew : db.dispatchQueue.rows.length ≤ 10)
    (hverdict : ∀ row ∈ db.dispatchQueue.rows, verdict js agent canServe row = .ok true) :
    ScanSafe js q order db now agent canServe cond := by
  have hall : ∀ row ∈ oldestFirst order db fun row => drainBaseQuery js q db now agent row && cond row,
      verdict js agent canServe row = .ok true :=
    fun row hrow => hverdict row (mem_oldestFirst.1 hrow).1
  have hlen : (oldestFirst order db fun row =>
      drainBaseQuery js q db now agent row && cond row).length ≤ 10 := by
    rw [oldestFirst, (order.perm _).length_eq]
    exact (length_filter_le ..).trans hfew
  constructor
  · rintro ⟨row, hrow, hcond, hadm⟩
    rw [take_of_length_le hlen]
    refine ⟨row, mem_oldestFirst.2 ⟨hrow, ?_⟩, hadm.2⟩
    rw [and_eq_true, drainBaseQuery_iff]
    exact ⟨hadm.1, hcond⟩
  · rintro before row after hbatch ⟨err, herr⟩
    rw [hall row (mem_of_mem_take (by rw [hbatch]; simp))] at herr
    cases herr

/-- The drain claims the only job there is, with a predicate that accepts every job as
without one. -/
theorem dequeueForLabels_claimsOldest_single : ∃ agent : AgentQuery,
    ClaimsOldest lowercaseRuntime {} singleDb 0 agent none
      (dequeueForLabels lowercaseRuntime {} createdAtOrder singleDb 0 agent none) ∧
    (dequeueForLabels lowercaseRuntime {} createdAtOrder singleDb 0 agent none).map
        (fun o => (o.1.map QueuedJob.id, o.2)) =
      (dequeueForLabels lowercaseRuntime {} createdAtOrder singleDb 0 agent
        (some fun _ => true)).map fun o => (o.1.map QueuedJob.id, o.2) := by
  have hnone : DrainSafe lowercaseRuntime {} createdAtOrder singleDb 0
      { agentLabels := ["linux"] } none := by
    refine ⟨fun ⟨row, hrow, _, hfree⟩ => absurd hfree ?_, fun _ => scanSafe_of_forall (by decide) ?_⟩
    · rw [mem_singleton.1 hrow]
      decide
    · decide
  have hall : DrainSafe lowercaseRuntime {} createdAtOrder singleDb 0
      { agentLabels := ["linux"] } (some fun _ => true) :=
    scanSafe_of_forall (by decide) (by decide)
  have h := dequeueForLabels_claimsOldest lowercaseRuntime {} createdAtOrder singleDb 0
    { agentLabels := ["linux"] }
  exact ⟨_, (h.1 none).2 hnone, h.2 hnone hall (by decide)⟩

/-- A queue with two jobs for an agent labelled `linux`, of which the older has a regular
expression. -/
def olderPatternDb : Db where
  dispatchQueue := ⟨[patternRow "old" "linux" 1,
    { id := "new", runId := "run", jobName := "new", status := .pending, createdAt := 2,
      runsOnLabels := ["linux"] }], by decide⟩
  executionRuns := []
  clusterInstances := []
  now := 3

/-- A queue with a job for an agent labelled `linux`, behind ten older ones for others. -/
def crowdedDb : Db where
  dispatchQueue := ⟨(range 10).map (fun i =>
    patternRow (String.ofList (replicate i 'w')) "windows" i) ++
      [patternRow "job" "linux" 10], by decide⟩
  executionRuns := []
  clusterInstances := []
  now := 11

/-- Where the agent may be given a job, a drain that does what it is to do claims one at
least as old. -/
theorem ClaimsOldest.of_admits {out : Except RegExpError (Option QueuedJob × Db)}
    (h : ClaimsOldest js q db now agent canServe out) (hrow : row ∈ db.dispatchQueue)
    (hadm : Admits js q db now agent canServe row) :
    ∃ row' ∈ db.dispatchQueue, out.map (fun o => o.1.map QueuedJob.id) = .ok (some row'.id) ∧
      row'.createdAt ≤ row.createdAt := by
  match out, h with
  | .ok (some job, _), ⟨row', hrow', _, hold, hid, _⟩ =>
    exact ⟨row', hrow', by simp [Except.map, hid], hold row hrow hadm⟩
  | .ok (none, _), ⟨_, hno⟩ => exact absurd hadm (hno row hrow)

/-- The drain claims the younger of two jobs, and with a predicate that accepts every job
the older one; and it finds no job behind ten that it refuses. -/
theorem exists_drained_wrongly :
    (∃ db : Db, ¬ClaimsOldest lowercaseRuntime {} db 0 { agentLabels := ["linux"] } none
        (dequeueForLabels lowercaseRuntime {} createdAtOrder db 0 { agentLabels := ["linux"] } none) ∧
      (dequeueForLabels lowercaseRuntime {} createdAtOrder db 0 { agentLabels := ["linux"] } none).map
          (fun o => o.1.map QueuedJob.id) = .ok (some "new") ∧
      (dequeueForLabels lowercaseRuntime {} createdAtOrder db 0 { agentLabels := ["linux"] }
          (some fun _ => true)).map (fun o => o.1.map QueuedJob.id) = .ok (some "old")) ∧
    ∃ db : Db, ¬ClaimsOldest lowercaseRuntime {} db 0 { agentLabels := ["linux"] } none
        (dequeueForLabels lowercaseRuntime {} createdAtOrder db 0 { agentLabels := ["linux"] } none) ∧
      (dequeueForLabels lowercaseRuntime {} createdAtOrder db 0 { agentLabels := ["linux"] } none).map
          (fun o => o.1.map QueuedJob.id) = .ok none := by
  refine ⟨⟨olderPatternDb, fun h => ?_, by decide, by decide⟩, crowdedDb, fun h => ?_, by decide⟩
  · -- The row claimed is the newer one, but the older one is admitted.
    have hmem : patternRow "old" "linux" 1 ∈ olderPatternDb.dispatchQueue.rows := by decide
    obtain ⟨row, hrow, hout, hle⟩ := h.of_admits hmem ⟨drainBaseQuery_iff.1 (by decide), by decide⟩
    have hold : ∀ row ∈ olderPatternDb.dispatchQueue.rows, row.createdAt ≤ 1 → row.id ≠ "new" := by
      decide
    have hclaimed : (dequeueForLabels lowercaseRuntime {} createdAtOrder olderPatternDb 0
        { agentLabels := ["linux"] } none).map (fun o => o.1.map QueuedJob.id) = .ok (some "new") := by
      decide
    rw [hclaimed] at hout
    exact hold row hrow hle (Option.some.inj (Except.ok.inj hout)).symm
  · -- No row is claimed, but the youngest one is admitted.
    have hmem : patternRow "job" "linux" 10 ∈ crowdedDb.dispatchQueue.rows := by decide
    obtain ⟨row, -, hout, -⟩ := h.of_admits hmem ⟨drainBaseQuery_iff.1 (by decide), by decide⟩
    have hclaimed : (dequeueForLabels lowercaseRuntime {} createdAtOrder crowdedDb 0
        { agentLabels := ["linux"] } none).map (fun o => o.1.map QueuedJob.id) = .ok none := by
      decide
    rw [hclaimed] at hout
    cases Except.ok.inj hout

end Kici.JobQueue

/-!
## One pending job

If a single row of the queue is pending, then a drain takes its job if and only if the agent may be
given it (`JobQueue.dequeueForLabels_iff_admits`), whichever way the drain goes.
-/

namespace Kici

/-- The row is the only one that is pending. -/
structure Db.OnlyPending (db : Db) (row : DispatchRow) : Prop where
  mem : row ∈ db.dispatchQueue
  only : ∀ r ∈ db.dispatchQueue, r.status = .pending → r = row

namespace JobQueue

variable {js : JsRuntime} {q : JobQueue} {order : OrderBy DispatchRow.createdAt} {db : Db} {now : ℕ}
  {agent : AgentQuery}
  {canServe : Option (QueuedJob → Bool)} {row : DispatchRow} {taken : QueuedJob} {db' : Db}

/-- Rows of a condition that have been read are eligible rows of the queue. -/
theorem mem_batch {cond : DispatchRow → Bool}
    (h : row ∈ (oldestFirst order db fun row => drainBaseQuery js q db now agent row && cond row).take
      10) :
    row ∈ db.dispatchQueue ∧ Eligible js q db now agent row := by
  obtain ⟨hrow, hcond⟩ := mem_oldestFirst.1 (List.mem_of_mem_take h)
  exact ⟨hrow, drainBaseQuery_iff.1 (Bool.and_eq_true_iff.1 hcond).1⟩

/-- A search through rows takes the job of one that the agent may be given. -/
theorem admits_of_claimFirst {admits : QueuedJob → Except RegExpError Bool} {cond : DispatchRow → Bool}
    (hadmits : ∀ row, admits (rowToQueuedJob js row) = verdict js agent canServe row)
    (h : claimFirst js q db now agent admits ((oldestFirst order db fun row =>
      drainBaseQuery js q db now agent row && cond row).take 10) = .ok (some taken, db')) :
    ∃ row ∈ db.dispatchQueue, Admits js q db now agent canServe row ∧ taken.id = row.id := by
  rcases claimFirst_cases js q now agent admits fun row hrow =>
    ⟨(mem_batch hrow).1, (mem_batch hrow).2.pending⟩ with
    ⟨hnone, -⟩ | ⟨before, row, after, hbatch, -, ⟨hgiven, hsome⟩ | ⟨err, -, herr⟩⟩
  · rw [hnone] at h
    cases h
  · rw [hsome] at h
    cases h
    have hmem : row ∈ (oldestFirst order db fun row =>
      drainBaseQuery js q db now agent row && cond row).take 10 := by
      rw [hbatch]
      simp
    obtain ⟨hrow, heligible⟩ := mem_batch hmem
    exact ⟨row, hrow, ⟨heligible, (hadmits row).symm.trans hgiven⟩, rfl⟩
  · rw [herr] at h
    cases h

/-- A drain takes a job that the agent may be given. -/
theorem admits_of_dequeueForLabels
    (h : dequeueForLabels js q order db now agent canServe = .ok (some taken, db')) :
    ∃ row ∈ db.dispatchQueue, Admits js q db now agent canServe row ∧ taken.id = row.id := by
  cases canServe with
  | some canServe =>
    have hclaim : claimFirst js q db now agent
        (fun job => do
          return (← jobPatternsSatisfiedBy js job (js.canonicalizeLabels agent.agentLabels)) &&
            canServe job)
        ((oldestFirst order db fun row => drainBaseQuery js q db now agent row && true).take 10) =
          .ok (some taken, db') := by
      simpa only [Bool.and_true, dequeueForLabels, claimWithPostFilter] using h
    exact admits_of_claimFirst (fun _ => rfl) hclaim
  | none =>
    cases hcandidate : patternFreeCandidate js q order db now agent with
    | some row =>
      obtain ⟨⟨row', rows, hreturning, hid⟩, -⟩ := returning_claimPatternFree_of_some hcandidate
      obtain ⟨hrow, heligible, hfree, -⟩ := patternFreeCandidate_eq_some hcandidate
      simp only [dequeueForLabels, hreturning] at h
      cases h
      exact ⟨row, hrow, ⟨heligible, verdict_of_patternFree hfree⟩, hid⟩
    | none =>
      simp only [dequeueForLabels, returning_claimPatternFree_of_none hcandidate] at h
      refine admits_of_claimFirst (fun row => ?_) h
      simp only [verdict, Option.all_none, Bool.and_true]
      exact (bind_pure _).symm

section

variable (h : db.OnlyPending row)
include h

/-- The rows of a condition are no others than the only pending one. -/
theorem eq_of_mem_oldestFirst {cond : DispatchRow → Bool}
    {r : DispatchRow} (hr : r ∈ oldestFirst order db fun row =>
      drainBaseQuery js q db now agent row && cond row) :
    r = row := by
  obtain ⟨hmem, hcond⟩ := mem_oldestFirst.1 hr
  exact h.only r hmem (drainBaseQuery_iff.1 (Bool.and_eq_true_iff.1 hcond).1).pending

/-- So they are few, and none is lost to the limit of a batch. -/
theorem length_oldestFirst_le {cond : DispatchRow → Bool} :
    (oldestFirst order db fun row => drainBaseQuery js q db now agent row && cond row).length ≤ 1 := by
  have hnodup : (oldestFirst order db fun row =>
    drainBaseQuery js q db now agent row && cond row).Nodup :=
    (order.perm _).nodup_iff.2 ((List.Nodup.of_map _ db.dispatchQueue.nodup).filter _)
  have hsub : (oldestFirst order db fun row => drainBaseQuery js q db now agent row && cond row) ⊆
    [row] := by
    intro r hr
    rw [List.mem_singleton]
    exact eq_of_mem_oldestFirst h hr
  exact (List.subperm_of_subset hnodup hsub).length_le

theorem scanSafe_of_onlyPending (hadmits : Admits js q db now agent canServe row)
    {cond : DispatchRow → Bool} : ScanSafe js q order db now agent canServe cond where
  covers := by
    rintro ⟨r, hr, hcond, hgiven⟩
    rw [List.take_of_length_le ((length_oldestFirst_le h).trans (by decide))]
    refine ⟨r, mem_oldestFirst.2 ⟨hr, ?_⟩, hgiven.2⟩
    rw [Bool.and_eq_true, drainBaseQuery_iff]
    exact ⟨hgiven.1, hcond⟩
  compiles before r after hbatch := by
    rintro ⟨err, herr⟩
    have hmem : r ∈ (oldestFirst order db fun row =>
      drainBaseQuery js q db now agent row && cond row).take 10 := by
      rw [hbatch]
      simp
    rw [eq_of_mem_oldestFirst h (List.mem_of_mem_take hmem), hadmits.2] at herr
    cases herr

theorem drainSafe_of_onlyPending (hadmits : Admits js q db now agent canServe row) :
    DrainSafe js q order db now agent canServe := by
  cases canServe with
  | some canServe => exact scanSafe_of_onlyPending h hadmits
  | none =>
    refine ⟨?_, fun _ => scanSafe_of_onlyPending h hadmits⟩
    rintro ⟨r, hr, heligible, hfree⟩ r' hr' hadmits'
    have heq : r = r' := (h.only r hr heligible.pending).trans (h.only r' hr' hadmits'.1.pending).symm
    exact ⟨r, hr, heligible, hfree, by rw [heq]⟩

/-- A drain takes the only pending job exactly if the agent may be given it. -/
theorem dequeueForLabels_iff_admits :
    (∃ taken db', dequeueForLabels js q order db now agent canServe = .ok (some taken, db') ∧
      taken.id = row.id) ↔ Admits js q db now agent canServe row := by
  constructor
  · rintro ⟨taken, db', hdequeue, -⟩
    obtain ⟨r, hr, hadmits, -⟩ := admits_of_dequeueForLabels hdequeue
    exact h.only r hr hadmits.1.pending ▸ hadmits
  · intro hadmits
    have holdest : ClaimsOldest js q db now agent canServe
      (dequeueForLabels js q order db now agent canServe) :=
      claimsOldest_iff_drainSafe.2 (drainSafe_of_onlyPending h hadmits)
    rcases hdequeue : dequeueForLabels js q order db now agent canServe with err | ⟨_ | taken, db'⟩
    · rw [hdequeue] at holdest
      exact holdest.elim
    · rw [hdequeue] at holdest
      exact absurd hadmits (holdest.2 row h.mem)
    · rw [hdequeue] at holdest
      obtain ⟨r, hr, hadmits', -, hid, -⟩ := holdest
      exact ⟨taken, db', rfl, hid.trans (congrArg _ (h.only r hr hadmits'.1.pending))⟩

end

end JobQueue

end Kici
