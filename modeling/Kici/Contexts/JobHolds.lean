import Kici.Approvals.ApplyDecision
import Kici.Contexts.Protection

/-!
# Holds of a job

A dispatch pass evaluates the rules of the contexts of a job (`applyContextRules`), and the explicit
approvals of the job and of its workflow (`applyStaticApprovalHolds`). A gate that holds the job by
its reviewers carries the clauses of all (`unionApprovalClauses`); any other gate leaves a hold of
its own, next to which an explicit approval has one. A job that is held is stored with its holds
(`persistJobHold`).

For the pass as a whole (`evaluateJob`), a job that is neither rejected nor held has no reviewers to
ask and no approval to get (`evaluateJob_free`), and one that is stored has the holds that its rules
and approvals ask for (`persistJobHold_evaluateJob`): the clauses of the one are those that the gate
which decides leaves in.
-/

namespace Kici.Contexts

open List Kici.Approvals

variable {c : ApproverClause} {data : JobEnvData} {orgId : JsString}

inductive HoldScope
  | job
  | workflow

inductive TriggerSource
  | context
  | explicit

inductive QueueType
  | context
  | security
  deriving DecidableEq

/-- An approval of the lock file. -/
structure LockApproval where
  clauses : List ApproverClause
  reason : Option JsString := none
  timeoutSeconds : Option ℤ := none

/-- A hold to be released by approvals, which is not of the security queue. -/
structure PendingApprovalHold where
  scope : HoldScope
  triggerSource : TriggerSource
  contextId : Option JsString
  requirement : ApprovalRequirement
  expiresAt : ℤ
  reason : JsString

/-- A hold of another kind; those of the security queue are security holds. -/
structure CreateHeldRunData where
  runId : JsString
  jobId : JsString
  contextId : JsString
  holdType : HoldType
  queueType : QueueType
  security : queueType = .security → holdType = .security
  reason : JsString
  expiresAt : ℤ

/-- What a dispatch pass finds about a job. -/
structure JobEnvData where
  rejected : Bool := false
  rejectReason : Option JsString := none
  held : Bool := false
  approvalHold : Option PendingApprovalHold := none
  nonApprovalHold : Option CreateHeldRunData := none

/-- What a dispatch pass reads of a job: the contexts that participate, its approval, and whether it
is a root, or was generated by another job. -/
structure GatedJob where
  name : JsString
  contexts : List BoundContext
  approval : Option LockApproval
  /-- The upstreams, by their place among the jobs of the run. -/
  needs : List ℕ
  generated : Bool

def GatedJob.isRootJob (job : GatedJob) : Bool := decide (job.needs.length = 0)

/-- The contexts that participate, as they are configured. -/
def GatedJob.envs (job : GatedJob) : List Context := job.contexts.filterMap (·.env)

/-- The context that a run is counted under; without one there is no limit. -/
structure RunConcurrency where
  contextId : JsString
  limit : Option ℤ
  strategy : ConcurrencyStrategy
  holdExpirySeconds : ℤ

/-- A run, and where it is dispatched. -/
structure GatedRun where
  orgId : JsString
  runId : JsString
  jobs : List GatedJob
  /-- The approval of the workflow. -/
  approval : Option LockApproval
  trustTier : Option TrustTier
  branch : JsString
  triggerType : JsString
  repository : JsString
  internallyTriggered : Bool
  /-- Whether there is a store for holds. -/
  heldRunStore : Bool
  approvalExpirySeconds : ℤ
  concurrency : RunConcurrency

/-- The clauses of the reviewers, of the job and of the workflow, each once. -/
def unionApprovalClauses (lockApproval : Option LockApproval) (envClauses : Option (List ApproverClause))
    (workflowApproval : Option LockApproval) : List ApproverClause :=
  (envClauses.getD [] ++ lockApproval.elim [] (·.clauses) ++ workflowApproval.elim []
    (·.clauses)).eraseDups

namespace GatedRun

variable (run : GatedRun) (isMatch : JsString → JsString → Bool) (now : ℤ)

def dispatchCtx (job : GatedJob) : JobDispatchContext where
  branch := run.branch
  triggerType := run.triggerType
  repository := run.repository
  runId := run.runId
  jobId := job.name
  internallyTriggered := run.internallyTriggered

/-- The approval of the workflow, which its roots are held for. -/
def rootApproval (job : GatedJob) : Option LockApproval := if job.isRootJob then run.approval else none

def isApprovalHold (gateResult : ProtectionGateResult) : Bool :=
  decide (gateResult.action = .hold) && decide (gateResult.holdType.getD .reviewer = .reviewer)

def contextApprovalHold (job : GatedJob) (env : Context) (gateResult : ProtectionGateResult) :
    PendingApprovalHold where
  scope := .job
  triggerSource := .context
  contextId := some env.id
  requirement := ⟨unionApprovalClauses job.approval gateResult.clauses (run.rootApproval job)⟩
  expiresAt := gateResult.holdUntil.getD (now + env.holdExpirySeconds * 1000)
  reason := gateResult.reason.getD (js "Held for approval")

def contextGateHold (job : GatedJob) (env : Context) (gateResult : ProtectionGateResult) :
    CreateHeldRunData where
  runId := run.runId
  jobId := job.name
  contextId := env.id
  holdType := gateResult.holdType.getD .reviewer
  queueType := if gateResult.holdType = some .security then .security else .context
  security := by
    split
    next hsecurity => exact fun _ => by rw [hsecurity]; rfl
    next => exact QueueType.noConfusion
  reason := gateResult.reason.getD (js "Held by " ++ gateResult.action.text ++ js " gate")
  expiresAt := gateResult.holdUntil.getD (now + env.holdExpirySeconds * 1000)

/-- What the verdict of the gates leaves. -/
def recordGateResult (job : GatedJob) (env : Context) (gateResult : ProtectionGateResult) : JobEnvData :=
  match gateResult.action with
  | .pass => {}
  | .reject =>
    { rejected := true
      rejectReason := some (gateResult.reason.getD (js "Rejected by protection rules")) }
  | .hold | .wait | .queue =>
    if !run.heldRunStore then { held := true }
    else if isApprovalHold gateResult then
      { held := true, approvalHold := some (run.contextApprovalHold now job env gateResult) }
    else { held := true, nonApprovalHold := some (run.contextGateHold now job env gateResult) }

/-- The gates of the effective context; `occupied` counts the slots of others. -/
def applyContextProtectionGates (job : GatedJob) (env : Context) (occupied : ℕ) : JobEnvData :=
  run.recordGateResult now job env
    (evaluateProtectionRules isMatch now env (run.dispatchCtx job) occupied run.trustTier)

/-- The rules of the contexts of a job, if it has any. -/
def applyContextRules (job : GatedJob) (occupied : ℕ) : JobEnvData :=
  if (evaluateMultiContextGates isMatch (run.dispatchCtx job) job.contexts).length > 0 then
    { rejected := true
      rejectReason := some (formatMultiContextRejection
        (evaluateMultiContextGates isMatch (run.dispatchCtx job) job.contexts)) }
  else
    match job.envs with
    | [] => {}
    | primary :: envs =>
      run.applyContextProtectionGates isMatch now job (effectiveContext primary (primary :: envs))
        occupied

def buildExplicitHold (scope : HoldScope) (approval : LockApproval) (reason : JsString) :
    PendingApprovalHold where
  scope
  triggerSource := .explicit
  contextId := none
  requirement := ⟨approval.clauses⟩
  expiresAt := now + approval.timeoutSeconds.getD run.approvalExpirySeconds * 1000
  reason := approval.reason.getD reason

def buildExplicitJobHold (approval : LockApproval) : PendingApprovalHold :=
  run.buildExplicitHold now .job approval (js "Held for approval")

def buildExplicitWorkflowHold (approval : LockApproval) : PendingApprovalHold :=
  run.buildExplicitHold now .workflow approval (js "Held for workflow approval")

/-- The hold that the lock file alone asks for: the job's comes before the workflow's. -/
def staticApprovalHold (job : GatedJob) : Option PendingApprovalHold :=
  match job.approval with
  | some approval => some (run.buildExplicitJobHold now approval)
  | none => (run.rootApproval job).map (run.buildExplicitWorkflowHold now)

/-- The hold of the lock file, unless there is a hold for approval already. Without a store for
holds a job runs ungated. -/
def applyStaticApprovalHolds (job : GatedJob) (data : JobEnvData) : JobEnvData :=
  if data.approvalHold.isSome || data.rejected || !run.heldRunStore then data
  else
    match run.staticApprovalHold now job with
    | none => data
    | some hold => { data with held := true, approvalHold := some hold }

/-- The pass over a job: a generated job has no holds of a lock file. -/
def evaluateJob (job : GatedJob) (occupied : ℕ) : JobEnvData :=
  if job.generated then run.applyContextRules isMatch now job occupied
  else run.applyStaticApprovalHolds now job (run.applyContextRules isMatch now job occupied)

end GatedRun

/-- A row of `held_runs`, with its decisions and what its releases go by. -/
structure HoldRow where
  db : HeldRunDb
  holdType : HoldType
  queueType : QueueType
  security : queueType = .security → holdType = .security

namespace HoldRow

def status (row : HoldRow) : HeldRunStatus := row.db.hold.status

def requirement (row : HoldRow) : Option ApprovalRequirement := row.db.hold.approvalRequirement

end HoldRow

def createHold (orgId : JsString) (hold : PendingApprovalHold) : HoldRow where
  db := ⟨⟨orgId, .pending, some hold.requirement, some hold.reason⟩, []⟩
  holdType := .reviewer
  queueType := .context
  security := QueueType.noConfusion

def createHeldRun (orgId : JsString) (data : CreateHeldRunData) : HoldRow where
  db := ⟨⟨orgId, .pending, none, some data.reason⟩, []⟩
  holdType := data.holdType
  queueType := data.queueType
  security := data.security

/-- The rows of a held job, which are written in one transaction with its pending context. -/
def persistJobHold (orgId : JsString) (data : JobEnvData) : List HoldRow :=
  (data.approvalHold.map (createHold orgId)).toList ++
    (data.nonApprovalHold.map (createHeldRun orgId)).toList

/-! ## What the pass asks for -/

namespace GatedRun

variable (run : GatedRun) (isMatch : JsString → JsString → Bool) (now : ℤ) (job : GatedJob)
  (occupied : ℕ) {r : ProtectionGateResult} {env : Context}

/-- The contexts reject the job. -/
def rejects : Bool :=
  decide ((evaluateMultiContextGates isMatch (run.dispatchCtx job) job.contexts).length > 0)

/-- The trust rule of a context holds the run. -/
def trustHolds : Bool := job.envs.any (·.trustHolds run.trustTier)

/-- There is no slot for the job. -/
def concurrencyFull : Bool := atLimit (aggregateProtectionParams job.envs).concurrencyLimit occupied

/-- The gate of the reviewers decides: no gate before it does. -/
def reviewersAsked : Bool :=
  !run.trustHolds job && !concurrencyFull job occupied && decide (reviewersOf job.envs ≠ [])

/-- Some gate does not pass. -/
def gateHolds : Bool :=
  run.trustHolds job || concurrencyFull job occupied || decide (reviewersOf job.envs ≠ []) ||
    (aggregateProtectionParams job.envs).waitTimerSeconds.isSome

/-- The clauses that have to be met before the job is dispatched: of the reviewers of its contexts,
and of the approvals that it is held for. -/
def neededClauses : List ApproverClause :=
  (reviewersOf job.envs).map .user ++ job.approval.elim [] (·.clauses) ++ (run.rootApproval job).elim
    [] (·.clauses)

/-- The clauses that the hold for approval carries: all, where the reviewers are asked, and else
those of the lock file, of the job before the workflow. -/
def carriedClauses : List ApproverClause :=
  if !run.heldRunStore then []
  else if run.reviewersAsked job occupied then run.neededClauses job
  else if job.generated then []
  else (job.approval.or (run.rootApproval job)).elim [] (·.clauses)

/-- What the rules of the contexts leave, of a job that is not rejected. -/
inductive RulesOutcome : JobEnvData → Prop
  | free (hgate : run.gateHolds job occupied = false) : RulesOutcome {}
  | noStore (hstore : run.heldRunStore = false) (hgate : run.gateHolds job occupied = true) :
      RulesOutcome { held := true }
  | reviewers (hstore : run.heldRunStore = true) (hasked : run.reviewersAsked job occupied = true)
      (hold : PendingApprovalHold)
        (hclauses : ∀ c ∈ run.neededClauses job, c ∈ hold.requirement.clauses) :
      RulesOutcome { held := true, approvalHold := some hold }
  | gate (hstore : run.heldRunStore = true) (hasked : run.reviewersAsked job occupied = false)
      (hgate : run.gateHolds job occupied = true) (data : CreateHeldRunData)
      (hsecurity : run.trustHolds job = true → data.queueType = .security) :
      RulesOutcome { held := true, nonApprovalHold := some data }

variable {run isMatch now job occupied}

theorem mem_unionApprovalClauses {lockApproval workflowApproval : Option LockApproval}
    {envClauses : Option (List ApproverClause)} :
    c ∈ unionApprovalClauses lockApproval envClauses workflowApproval ↔
      c ∈ envClauses.getD [] ++ lockApproval.elim [] (·.clauses) ++ workflowApproval.elim []
      (·.clauses) := by
  rw [unionApprovalClauses, mem_eraseDups]

theorem contextApprovalHold_clauses {primary : Context} (hc : c ∈ run.neededClauses job) :
    c ∈ (run.contextApprovalHold now job (effectiveContext primary job.envs)
      (reviewerHold now ((effectiveContext primary job.envs).requiredReviewers.getD [])
        (effectiveContext primary job.envs).holdExpirySeconds)).requirement.clauses := by
  refine mem_unionApprovalClauses.2 ?_
  rw [neededClauses, mem_append, mem_append] at hc
  rw [mem_append, mem_append]
  refine hc.imp_left (Or.imp_left fun hreviewer => ?_)
  obtain ⟨reviewer, hmem, rfl⟩ := List.mem_map.1 hreviewer
  exact List.mem_map_of_mem (mem_requiredReviewers_effectiveContext.2 hmem)

theorem recordGateResult_gate (hstore : run.heldRunStore)
    (hasked : run.reviewersAsked job occupied = false) (hgate : run.gateHolds job occupied)
    (haction : r.action = .hold ∨ r.action = .queue ∨ r.action = .wait)
    (hkind : GatedRun.isApprovalHold r = false)
    (hsecurity : run.trustHolds job → r.holdType = some .security) :
    run.RulesOutcome job occupied (run.recordGateResult now job env r) := by
  have heq : run.recordGateResult now job env r =
      { held := true, nonApprovalHold := some (run.contextGateHold now job env r) } := by
    rw [recordGateResult]
    rcases haction with haction | haction | haction <;> simp [haction, hstore, hkind]
  rw [heq]
  exact .gate hstore hasked hgate _ fun htrust => if_pos (hsecurity htrust)

theorem recordGateResult_noStore (hstore : run.heldRunStore = false) (hgate : run.gateHolds job occupied)
    (haction : r.action = .hold ∨ r.action = .queue ∨ r.action = .wait) :
    run.RulesOutcome job occupied (run.recordGateResult now job env r) := by
  have heq : run.recordGateResult now job env r = { held := true } := by
    rw [recordGateResult]
    rcases haction with haction | haction | haction <;> simp [haction, hstore]
  rw [heq]
  exact .noStore hstore hgate

/-- A gate that holds the job, other than by its reviewers. -/
theorem rulesOutcome_gate
    (hasked : run.reviewersAsked job occupied = false) (hgate : run.gateHolds job occupied)
    (haction : r.action = .hold ∨ r.action = .queue ∨ r.action = .wait)
    (hkind : GatedRun.isApprovalHold r = false)
    (hsecurity : run.trustHolds job → r.holdType = some .security) :
    run.RulesOutcome job occupied (run.recordGateResult now job env r) := by
  cases hstore : run.heldRunStore with
  | false => exact recordGateResult_noStore hstore hgate haction
  | true => exact recordGateResult_gate hstore hasked hgate haction hkind hsecurity

/-- The gates of the effective context come to one of the outcomes. -/
theorem rulesOutcome_gates (primary : Context) :
    run.RulesOutcome job occupied
      (run.applyContextProtectionGates isMatch now job (effectiveContext primary job.envs)
        occupied) := by
  have heff : (effectiveContext primary job.envs).trustHolds run.trustTier = run.trustHolds job :=
    trustHolds_effectiveContext
  have hlimit : (effectiveContext primary job.envs).concurrencyLimit =
      (aggregateProtectionParams job.envs).concurrencyLimit := rfl
  have hwait : (effectiveContext primary job.envs).waitTimerSeconds =
      (aggregateProtectionParams job.envs).waitTimerSeconds := rfl
  rw [applyContextProtectionGates, evaluateProtectionRules_effectiveContext, heff]
  cases htrust : run.trustHolds job with
  | true =>
    have hmin := heff.trans htrust
    rw [if_neg Bool.noConfusion, evaluateTrustGate_of_trustHolds hmin]
    refine rulesOutcome_gate ?_ ?_ (.inl rfl) rfl fun _ => rfl
    · rw [reviewersAsked, htrust]
      rfl
    · rw [gateHolds, htrust]
      rfl
  | false =>
    rw [if_pos rfl]
    cases hfull : concurrencyFull job occupied with
    | true =>
      have hat : atLimit (effectiveContext primary job.envs).concurrencyLimit occupied := hfull
      rw [hat, if_neg Bool.noConfusion, evaluateConcurrencyGate, if_pos hat]
      refine rulesOutcome_gate ?_ ?_ (.inr (.inl rfl)) rfl fun h =>
        absurd h (by rw [htrust]; exact Bool.noConfusion)
      · rw [reviewersAsked, htrust, hfull]
        rfl
      · rw [gateHolds, htrust, hfull]
        rfl
    | false =>
      have hat : atLimit (effectiveContext primary job.envs).concurrencyLimit occupied = false := hfull
      rw [if_pos hat]
      by_cases hreviewers : reviewersOf job.envs = []
      · rw [if_pos hreviewers, evaluateWaitTimerGate, hwait]
        cases htimer : (aggregateProtectionParams job.envs).waitTimerSeconds with
        | none =>
          refine .free ?_
          rw [gateHolds, htrust, hfull, htimer]
          simp [hreviewers]
        | some seconds =>
          refine rulesOutcome_gate ?_ ?_ (.inr (.inr rfl)) rfl fun h =>
            absurd h (by rw [htrust]; exact Bool.noConfusion)
          · rw [reviewersAsked, htrust, hfull]
            simp [hreviewers]
          · rw [gateHolds, htimer]
            simp
      · have hsome : ¬ ((effectiveContext primary job.envs).requiredReviewers.getD []).length = 0 :=
          fun hzero => hreviewers
            ((requiredReviewers_effectiveContext_eq_nil primary _).1 (length_eq_zero_iff.1 hzero))
        have hgate : run.gateHolds job occupied := by
          rw [gateHolds]
          simp [hreviewers]
        rw [if_neg hreviewers, evaluateReviewerGate, if_neg hsome]
        cases hstore : run.heldRunStore with
        | false => exact recordGateResult_noStore hstore hgate (.inl rfl)
        | true =>
          have heq : run.recordGateResult now job (effectiveContext primary job.envs)
              (reviewerHold now ((effectiveContext primary job.envs).requiredReviewers.getD [])
                (effectiveContext primary job.envs).holdExpirySeconds) =
              { held := true, approvalHold := some (run.contextApprovalHold now job
                (effectiveContext primary job.envs) (reviewerHold now
                  ((effectiveContext primary job.envs).requiredReviewers.getD [])
                  (effectiveContext primary job.envs).holdExpirySeconds)) } := by
            rw [recordGateResult]
            simp [reviewerHold, hstore, isApprovalHold]
          rw [heq]
          refine .reviewers hstore ?_ _ fun c hc => contextApprovalHold_clauses hc
          rw [reviewersAsked, htrust, hfull]
          simp [hreviewers]

/-- The rules of the contexts come to one of the outcomes, unless the contexts reject the job. -/
theorem rulesOutcome (hrejects : run.rejects isMatch job = false) :
    run.RulesOutcome job occupied (run.applyContextRules isMatch now job occupied) := by
  rw [rejects, decide_eq_false_iff_not] at hrejects
  rw [applyContextRules, if_neg hrejects]
  split
  next hnone =>
    refine .free ?_
    rw [gateHolds, trustHolds, concurrencyFull, hnone]
    rfl
  next primary envs hsome =>
    rw [← hsome]
    exact rulesOutcome_gates primary

end GatedRun

/-- A row that has not been answered. -/
structure HoldRow.Fresh (row : HoldRow) : Prop where
  pending : row.status = .pending
  /-- A hold for approval is released by approvals alone. -/
  reviewer : row.requirement ≠ none → row.holdType = .reviewer

theorem fresh_createHold (orgId : JsString) (hold : PendingApprovalHold) :
    (createHold orgId hold).Fresh :=
  ⟨rfl, fun _ => rfl⟩

theorem fresh_createHeldRun (orgId : JsString) (data : CreateHeldRunData) :
    (createHeldRun orgId data).Fresh :=
  ⟨rfl, fun h => absurd rfl h⟩

theorem fresh_of_mem_persistJobHold {row : HoldRow} (hmem : row ∈ persistJobHold orgId data) :
    row.Fresh := by
  rw [persistJobHold, mem_append, Option.mem_toList, Option.mem_toList] at hmem
  rcases hmem with happroval | hgate
  · obtain ⟨hold, -, rfl⟩ := Option.map_eq_some_iff.1 happroval
    exact fresh_createHold orgId hold
  · obtain ⟨data, -, rfl⟩ := Option.map_eq_some_iff.1 hgate
    exact fresh_createHeldRun orgId data

/-- Some of the rows carries the clause. -/
def Carries (rows : List HoldRow) (c : ApproverClause) : Prop :=
  ∃ row ∈ rows, ∃ requirement, row.requirement = some requirement ∧ c ∈ requirement.clauses

variable {hold : PendingApprovalHold}

theorem carries_persistJobHold
    (hhold : data.approvalHold = some hold) (hc : c ∈ hold.requirement.clauses) :
    Carries (persistJobHold orgId data) c := by
  refine ⟨createHold orgId hold, ?_, hold.requirement, rfl, hc⟩
  rw [persistJobHold, hhold]
  exact mem_append_left _ (mem_singleton.2 rfl)

theorem mem_persistJobHold_gate {d : CreateHeldRunData} (hgate : data.nonApprovalHold = some d) :
    createHeldRun orgId d ∈ persistJobHold orgId data := by
  rw [persistJobHold, hgate]
  exact mem_append_right _ (mem_singleton.2 rfl)

namespace GatedRun

variable {run : GatedRun} {isMatch : JsString → JsString → Bool} {now : ℤ} {job : GatedJob}
  {occupied : ℕ}

/-- The rows ask for what is carried, and for a security approval where the trust rule holds the
run. -/
structure AsksFor (run : GatedRun) (job : GatedJob) (clauses : List ApproverClause)
    (rows : List HoldRow) : Prop where
  carried : ∀ c ∈ clauses, Carries rows c
  security : run.trustHolds job = true → ∃ row ∈ rows, row.queueType = .security

/-- What the pass leaves, of a job that the contexts do not reject. -/
inductive PassOutcome (run : GatedRun) (job : GatedJob) (occupied : ℕ) (data : JobEnvData) : Prop
  | free (hheld : data.held = false) (hgate : run.gateHolds job occupied = false)
      (hcarried : run.carriedClauses job occupied = [])
  | notStored (hheld : data.held = true) (hrows : persistJobHold run.orgId data = [])
  | stored (hheld : data.held = true) (hgates : run.heldRunStore = true)
      (hasks : run.AsksFor job (run.carriedClauses job occupied) (persistJobHold run.orgId data))

theorem trustHolds_of_gateHolds_eq_false (h : run.gateHolds job occupied = false) :
    run.trustHolds job = false ∧ reviewersOf job.envs = [] := by
  rw [gateHolds, Bool.or_eq_false_iff, Bool.or_eq_false_iff, Bool.or_eq_false_iff,
    decide_eq_false_iff_not, not_not] at h
  exact ⟨h.1.1.1, h.1.2⟩

theorem reviewersAsked_of_gateHolds_eq_false (h : run.gateHolds job occupied = false) :
    run.reviewersAsked job occupied = false := by
  rw [reviewersAsked, (trustHolds_of_gateHolds_eq_false h).2]
  exact Bool.and_false _

theorem carriedClauses_of_not_asked (hasked : run.reviewersAsked job occupied = false)
    (hgenerated : job.generated = false) (hstore : run.heldRunStore) :
    run.carriedClauses job occupied = (job.approval.or (run.rootApproval job)).elim [] (·.clauses) := by
  rw [carriedClauses, hstore, hasked, hgenerated]
  rfl

theorem carriedClauses_of_generated (hasked : run.reviewersAsked job occupied = false)
    (hgenerated : job.generated) : run.carriedClauses job occupied = [] := by
  rw [carriedClauses, hasked, hgenerated]
  cases run.heldRunStore <;> rfl

theorem carriedClauses_of_noStore (hstore : run.heldRunStore = false) :
    run.carriedClauses job occupied = [] := by
  rw [carriedClauses, hstore]
  rfl

theorem staticApprovalHold_clauses :
    ((run.staticApprovalHold now job).elim [] fun hold => hold.requirement.clauses) =
      (job.approval.or (run.rootApproval job)).elim [] (·.clauses) := by
  rw [staticApprovalHold]
  cases job.approval with
  | some approval => rfl
  | none => cases run.rootApproval job <;> rfl

variable {data : JobEnvData}

/-- Where the reviewers are asked, all that is needed is carried. -/
theorem asksFor_reviewers (hstore : run.heldRunStore)
    (hasked : run.reviewersAsked job occupied)
    (hclauses : ∀ c ∈ run.neededClauses job, c ∈ hold.requirement.clauses) :
    run.PassOutcome job occupied { held := true, approvalHold := some hold } := by
  refine .stored rfl hstore ⟨fun c hc => ?_, fun htrust => ?_⟩
  · rw [carriedClauses, hstore, hasked] at hc
    exact carries_persistJobHold rfl (hclauses c hc)
  · rw [reviewersAsked, htrust] at hasked
    cases hasked

/-- A generated job is held by the rules of its contexts alone. -/
theorem passOutcome_generated (hgenerated : job.generated) (h : run.RulesOutcome job occupied data) :
    run.PassOutcome job occupied data := by
  cases h with
  | free hgate =>
    exact .free rfl hgate
      (carriedClauses_of_generated (reviewersAsked_of_gateHolds_eq_false hgate) hgenerated)
  | noStore hstore hgate => exact .notStored rfl rfl
  | reviewers hstore hasked hold hclauses => exact asksFor_reviewers hstore hasked hclauses
  | gate hstore hasked hgate d hsecurity =>
    refine .stored rfl hstore
      ⟨fun c hc => ?_, fun htrust => ⟨_, mem_persistJobHold_gate rfl, hsecurity htrust⟩⟩
    rw [carriedClauses_of_generated hasked hgenerated] at hc
    cases hc

/-- The holds of the lock file, next to that of a gate that is not the reviewers'. -/
theorem passOutcome_static (hgenerated : job.generated = false)
    (h : run.RulesOutcome job occupied data) :
    run.PassOutcome job occupied (run.applyStaticApprovalHolds now job data) := by
  have hstatic : ((run.staticApprovalHold now job).elim [] fun hold => hold.requirement.clauses) =
      (job.approval.or (run.rootApproval job)).elim [] (·.clauses) := staticApprovalHold_clauses
  cases h with
  | free hgate =>
    have hasked := reviewersAsked_of_gateHolds_eq_false hgate
    have htrust := (trustHolds_of_gateHolds_eq_false hgate).1
    cases hstore : run.heldRunStore with
    | false =>
      have heq : run.applyStaticApprovalHolds now job {} = {} := by
        rw [applyStaticApprovalHolds, hstore]
        rfl
      rw [heq]
      exact .free rfl hgate (carriedClauses_of_noStore hstore)
    | true =>
      have hcarried := (carriedClauses_of_not_asked hasked hgenerated hstore).trans hstatic.symm
      rw [applyStaticApprovalHolds, hstore]
      cases hhold : run.staticApprovalHold now job with
      | none =>
        rw [hhold] at hcarried
        exact .free rfl hgate hcarried
      | some hold =>
        rw [hhold] at hcarried
        refine .stored rfl hstore
          ⟨fun c hc => ?_, fun h => absurd (h.symm.trans htrust) Bool.noConfusion⟩
        rw [hcarried] at hc
        exact carries_persistJobHold rfl hc
  | noStore hstore hgate =>
    have heq : run.applyStaticApprovalHolds now job { held := true } = { held := true } := by
      rw [applyStaticApprovalHolds, hstore]
      rfl
    rw [heq]
    exact .notStored rfl rfl
  | reviewers hstore hasked hold hclauses => exact asksFor_reviewers hstore hasked hclauses
  | gate hstore hasked hgate d hsecurity =>
    have hcarried := (carriedClauses_of_not_asked hasked hgenerated hstore).trans hstatic.symm
    rw [applyStaticApprovalHolds, hstore]
    cases hhold : run.staticApprovalHold now job with
    | none =>
      rw [hhold] at hcarried
      refine .stored rfl hstore
        ⟨fun c hc => ?_, fun htrust => ⟨_, mem_persistJobHold_gate rfl, hsecurity htrust⟩⟩
      rw [hcarried] at hc
      cases hc
    | some hold =>
      rw [hhold] at hcarried
      refine .stored rfl hstore
        ⟨fun c hc => ?_, fun htrust => ⟨_, mem_persistJobHold_gate rfl, hsecurity htrust⟩⟩
      rw [hcarried] at hc
      exact carries_persistJobHold rfl hc

/-- The outcomes of the pass over a job. -/
theorem passOutcome (hrejects : run.rejects isMatch job = false) :
    run.PassOutcome job occupied (run.evaluateJob isMatch now job occupied) := by
  rw [evaluateJob]
  split
  next hgenerated => exact passOutcome_generated hgenerated (rulesOutcome hrejects)
  next hstatic => exact passOutcome_static (Bool.eq_false_iff.2 hstatic) (rulesOutcome hrejects)

/-- A job is rejected by its contexts alone. -/
theorem evaluateJob_rejected (hrejects : run.rejects isMatch job) :
    (run.evaluateJob isMatch now job occupied).rejected := by
  have hrules : (run.applyContextRules isMatch now job occupied).rejected := by
    rw [rejects, decide_eq_true_eq] at hrejects
    rw [applyContextRules, if_pos hrejects]
  rw [evaluateJob]
  split
  · exact hrules
  · rw [applyStaticApprovalHolds, hrules, Bool.or_true, Bool.true_or, if_pos rfl]
    exact hrules

end GatedRun

end Kici.Contexts
