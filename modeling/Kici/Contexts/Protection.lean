import Kici.Approvals.Resolver
import Kici.Js.Date
import Mathlib.Data.List.Sort

/-!
# Protection rules of a context

A job that binds a context is dispatched by its rules, which are gates in a fixed order: branch,
trust, concurrency, reviewer and timer (`evaluateProtectionRules`). The first gate that does not
pass decides, and the others are not told of. Of several contexts, each has to let the job through
by its branches, trigger types and repositories (`evaluateMultiContextGates`); the other rules are
put together, the strictest of each (`aggregateProtectionParams`), and are those of one context in
their place (`buildEffectiveContext`).

For this context, what the gates come to is told by the rules of the contexts: the trust rule of any
of them (`trustHolds_effectiveContext`), the reviewers of all
(`mem_requiredReviewers_effectiveContext`), and the gate that decides
(`evaluateProtectionRules_effectiveContext`).
-/

namespace Kici.Contexts

open Kici.Approvals List

inductive TrustTier
  | trusted
  | unknown
  deriving DecidableEq

inductive HoldType
  | reviewer
  | timer
  | concurrency
  | security
  deriving DecidableEq

inductive ConcurrencyStrategy
  | queue
  | cancelPending

/-- What the gates read of a context. -/
structure Context where
  id : JsString
  name : JsString
  branchRestrictions : List JsString
  triggerTypeFilters : List JsString
  repoPatterns : List JsString
  concurrencyLimit : Option ℤ
  concurrencyStrategy : ConcurrencyStrategy
  requiredReviewers : Option (List JsString)
  waitTimerSeconds : Option ℤ
  holdExpirySeconds : ℤ
  /-- Whether `'trusted'` is the minimum. -/
  minimumTrust : Bool
  enabled : Bool

/-- What a job to dispatch is told by. -/
structure JobDispatchContext where
  branch : JsString
  triggerType : JsString
  repository : JsString
  runId : JsString
  jobId : JsString
  internallyTriggered : Bool

inductive GateAction
  | pass
  | reject
  | hold
  | queue
  | wait
  deriving DecidableEq

def GateAction.text : GateAction → JsString
  | .pass => js "pass"
  | .reject => js "reject"
  | .hold => js "hold"
  | .queue => js "queue"
  | .wait => js "wait"

/-- What a gate comes to; a time is in milliseconds. -/
structure ProtectionGateResult where
  action : GateAction
  reason : Option JsString := none
  holdUntil : Option ℤ := none
  holdType : Option HoldType := none
  clauses : Option (List ApproverClause) := none

def ProtectionGateResult.passed : ProtectionGateResult where
  action := .pass

def rejectWith (reason : JsString) : ProtectionGateResult where
  action := .reject
  reason := some reason

/-! ## The gates -/

section

variable (isMatch : JsString → JsString → Bool) (now : ℤ) (env : Context) (ctx : JobDispatchContext)

def internalTriggerNoBranchDetail : JsString :=
  js "this internally-triggered run carries no branch, so no branch restriction can be " ++
  js "satisfied — a scheduled run gains its branch after the next push to the default " ++
  js "branch re-registers the workflow; alternatively bind a context without a branch " ++
  js "restriction, or restrict by trigger type instead"

/-- Patterns that restrict a value, none of which it matches. -/
def excludes (patterns : List JsString) (value : JsString) : Bool :=
  decide (patterns.length > 0) && !patterns.any (isMatch value)

/-- A run that restricts branches, and has none. -/
def hasNoBranch : Bool :=
  decide (env.branchRestrictions.length > 0) && ctx.internallyTriggered && ctx.branch.isEmpty

def evaluateBranchGate : ProtectionGateResult :=
  if hasNoBranch env ctx then
    rejectWith (js "Context '" ++ env.name ++ js "' restricts branches: " ++
      internalTriggerNoBranchDetail)
  else if excludes isMatch env.branchRestrictions ctx.branch then
    rejectWith (js "Branch '" ++ ctx.branch ++ js "' not allowed for context '" ++ env.name ++ js "'")
  else if excludes isMatch env.triggerTypeFilters ctx.triggerType then
    rejectWith (js "Trigger type '" ++ ctx.triggerType ++ js "' not allowed for context '" ++
      env.name ++ js "'")
  else if excludes isMatch env.repoPatterns ctx.repository then
    rejectWith (js "Repository '" ++ ctx.repository ++ js "' not allowed for context '" ++
      env.name ++ js "'")
  else .passed

def trustedContributorHoldReason (contextName trustTier : JsString) : JsString :=
  js "Context '" ++ contextName ++ js "' requires trusted contributors (contributor is " ++
    trustTier ++ js ")"

/-- A tier that is not resolved passes. -/
def evaluateTrustGate (trustTier : Option TrustTier) : ProtectionGateResult :=
  if !env.minimumTrust then .passed
  else if trustTier = some .unknown then
    { action := .hold
      reason := some (trustedContributorHoldReason env.name (js "unknown"))
      holdType := some .security }
  else .passed

/-- No limit, or one that is not positive, is no limit. -/
def atLimit (concurrencyLimit : Option ℤ) (currentRunningCount : ℕ) : Bool :=
  concurrencyLimit.any fun limit : ℤ => decide (0 < limit) && decide (limit ≤ currentRunningCount)

def queueReason (concurrencyLimit : Option ℤ) (currentRunningCount : ℕ) : ConcurrencyStrategy → JsString
  | .cancelPending => js "cancel-pending"
  | .queue => js "Concurrency limit reached (" ++ js (toString currentRunningCount) ++ js "/" ++
      js (toString (concurrencyLimit.getD 0)) ++ js ")"

def evaluateConcurrencyGate (concurrencyLimit : Option ℤ) (concurrencyStrategy : ConcurrencyStrategy)
    (currentRunningCount : ℕ) : ProtectionGateResult :=
  if atLimit concurrencyLimit currentRunningCount then
    { action := .queue
      reason := some (queueReason concurrencyLimit currentRunningCount concurrencyStrategy)
      holdType := some .concurrency }
  else .passed

def reviewerHold (reviewers : List JsString) (holdExpirySeconds : ℤ) : ProtectionGateResult where
  action := .hold
  holdType := some .reviewer
  holdUntil := some (now + holdExpirySeconds * 1000)
  reason := some (js "Requires approval from: " ++ JsString.join reviewers (js ", "))
  clauses := some (reviewers.map .user)

def evaluateReviewerGate : ProtectionGateResult :=
  if (env.requiredReviewers.getD []).length = 0 then .passed
  else reviewerHold now (env.requiredReviewers.getD []) env.holdExpirySeconds

def evaluateWaitTimerGate : ProtectionGateResult :=
  match env.waitTimerSeconds with
  | none => .passed
  | some seconds =>
    { action := .wait
      holdType := some .timer
      holdUntil := some (now + seconds * 1000)
      reason := some (js "Wait timer: " ++ js (toString seconds) ++ js "s") }

/-- The first result that does not pass. -/
def firstNotPassing (results : List ProtectionGateResult) : ProtectionGateResult :=
  (results.find? (·.action ≠ .pass)).getD .passed

/-- The rules of a context: the first gate that does not pass decides. -/
def evaluateProtectionRules (currentRunningCount : ℕ) (trustTier : Option TrustTier) :
    ProtectionGateResult :=
  if !env.enabled then rejectWith (js "Context '" ++ env.name ++ js "' is disabled")
  else
    firstNotPassing [evaluateBranchGate isMatch env ctx, evaluateTrustGate env trustTier,
      evaluateConcurrencyGate env.concurrencyLimit env.concurrencyStrategy currentRunningCount,
      evaluateReviewerGate now env, evaluateWaitTimerGate now env]

end

/-! ## Several contexts -/

inductive ContextGateRejectReason
  | branchRestricted
  | triggerFiltered
  | repoUnmatched
  | contextDisabled
  | contextNotFound

def ContextGateRejectReason.text : ContextGateRejectReason → JsString
  | .branchRestricted => js "branch_restricted"
  | .triggerFiltered => js "trigger_filtered"
  | .repoUnmatched => js "repo_unmatched"
  | .contextDisabled => js "context_disabled"
  | .contextNotFound => js "context_not_found"

structure ContextGateRejection where
  context : JsString
  reason : ContextGateRejectReason
  detail : JsString

/-- A name that a job binds, with the context of that name, if there is one. -/
structure BoundContext where
  name : JsString
  env : Option Context

section

variable (isMatch : JsString → JsString → Bool) (ctx : JobDispatchContext)

/-- The first rule of branches, trigger types and repositories that a context fails by. -/
def firstFailingRule (env : Context) : Option (ContextGateRejectReason × JsString) :=
  if hasNoBranch env ctx then some (.branchRestricted, internalTriggerNoBranchDetail)
  else if excludes isMatch env.branchRestrictions ctx.branch then
    some (.branchRestricted, js "branch '" ++ ctx.branch ++ js "' not allowed")
  else if excludes isMatch env.triggerTypeFilters ctx.triggerType then
    some (.triggerFiltered, js "trigger type '" ++ ctx.triggerType ++ js "' not allowed")
  else if excludes isMatch env.repoPatterns ctx.repository then
    some (.repoUnmatched, js "repository '" ++ ctx.repository ++ js "' not allowed")
  else none

def gateRejection (b : BoundContext) : Option ContextGateRejection :=
  match b.env with
  | none => some ⟨b.name, .contextNotFound, js "context '" ++ b.name ++ js "' not found"⟩
  | some env =>
    if !env.enabled then some ⟨b.name, .contextDisabled, js "context '" ++ b.name ++ js "' is disabled"⟩
    else (firstFailingRule isMatch ctx env).map fun rule => ⟨b.name, rule.1, rule.2⟩

/-- All rejections: none where each context lets the job through. -/
def evaluateMultiContextGates (envs : List BoundContext) : List ContextGateRejection :=
  envs.filterMap (gateRejection isMatch ctx)

def formatMultiContextRejection (rejections : List ContextGateRejection) : JsString :=
  JsString.join (rejections.map fun r => js "multi-context gate: '" ++ r.context ++ js "' rejected (" ++
    r.reason.text ++ js ": " ++ r.detail ++ js ")") (js "; ")

end

structure EffectiveProtection where
  minimumTrust : Bool
  requiredReviewers : List JsString
  waitTimerSeconds : Option ℤ
  holdExpirySeconds : ℤ
  concurrencyLimit : Option ℤ
  concurrencyStrategy : ConcurrencyStrategy

def defaultHoldExpirySeconds : ℤ := 3600

def defaultConcurrencyStrategy : ConcurrencyStrategy := .queue

/-- A fold of values of which some are missing; it is missing where all are. -/
def combine (op : ℤ → ℤ → ℤ) (acc value : Option ℤ) : Option ℤ :=
  match acc, value with
  | acc, none => acc
  | none, some v => some v
  | some a, some v => some (op a v)

def longestWait (acc value : Option ℤ) : Option ℤ :=
  match value with
  | none => acc
  | some v => some (max (acc.getD 0) v)

/-- The rules of all contexts together, of each the strictest. -/
def aggregateProtectionParams (envs : List Context) : EffectiveProtection where
  minimumTrust := envs.any (·.minimumTrust)
  requiredReviewers := (envs.flatMap (·.requiredReviewers.getD [])).eraseDups.insertionSort
    JsString.Before
  waitTimerSeconds := (envs.map (·.waitTimerSeconds)).foldl longestWait none
  holdExpirySeconds :=
    ((envs.map fun env => some env.holdExpirySeconds).foldl (combine min) none).getD
      defaultHoldExpirySeconds
  concurrencyLimit := (envs.map (·.concurrencyLimit)).foldl (combine min) none
  concurrencyStrategy := envs.head?.elim defaultConcurrencyStrategy (·.concurrencyStrategy)

/-- One context in the place of several: the first of them, with the rules of all. -/
def buildEffectiveContext (primary : Context) (eff : EffectiveProtection) : Context :=
  { primary with
    branchRestrictions := []
    triggerTypeFilters := []
    repoPatterns := []
    enabled := true
    minimumTrust := eff.minimumTrust
    requiredReviewers := if eff.requiredReviewers.length > 0 then some eff.requiredReviewers else none
    waitTimerSeconds := eff.waitTimerSeconds
    holdExpirySeconds := eff.holdExpirySeconds
    concurrencyLimit := eff.concurrencyLimit
    concurrencyStrategy := eff.concurrencyStrategy }

/-! ## The rules of the effective context -/

/-- The context in the place of a list of contexts. -/
def effectiveContext (primary : Context) (envs : List Context) : Context :=
  buildEffectiveContext primary (aggregateProtectionParams envs)

/-- The trust rule of a context holds a run of the tier. -/
def Context.trustHolds (env : Context) (trustTier : Option TrustTier) : Bool :=
  env.minimumTrust && trustTier = some .unknown

/-- The reviewers that any of the contexts requires. -/
def reviewersOf (envs : List Context) : List JsString := envs.flatMap (·.requiredReviewers.getD [])

variable {isMatch : JsString → JsString → Bool} {now : ℤ} {env primary : Context} {envs : List Context}
  {ctx : JobDispatchContext} {running : ℕ} {trustTier : Option TrustTier}

theorem mem_requiredReviewers_aggregate {reviewer : JsString} :
    reviewer ∈ (aggregateProtectionParams envs).requiredReviewers ↔ reviewer ∈ reviewersOf envs := by
  rw [aggregateProtectionParams, (perm_insertionSort _ _).mem_iff, mem_eraseDups]
  rfl

/-- The reviewers of the effective context are those of all contexts. -/
theorem mem_requiredReviewers_effectiveContext {reviewer : JsString} :
    reviewer ∈ (effectiveContext primary envs).requiredReviewers.getD [] ↔
    reviewer ∈ reviewersOf envs := by
  rw [← mem_requiredReviewers_aggregate, effectiveContext, buildEffectiveContext]
  dsimp only
  split
  · rfl
  next hnone =>
    rw [eq_nil_of_length_eq_zero (Nat.eq_zero_of_not_pos hnone)]
    rfl

/-- The trust rule of the effective context is that of any of the contexts. -/
theorem trustHolds_effectiveContext :
    (effectiveContext primary envs).trustHolds trustTier = envs.any (·.trustHolds trustTier) := by
  rw [Bool.eq_iff_iff, any_eq_true]
  simp only [Context.trustHolds, Bool.and_eq_true]
  constructor
  · rintro ⟨hany, htier⟩
    obtain ⟨env, hmem, hmin⟩ := any_eq_true.1 hany
    exact ⟨env, hmem, hmin, htier⟩
  · rintro ⟨env, hmem, hmin, htier⟩
    exact ⟨any_eq_true.2 ⟨env, hmem, hmin⟩, htier⟩

theorem firstNotPassing_cons (r : ProtectionGateResult) (rs : List ProtectionGateResult) :
    firstNotPassing (r :: rs) = if r.action = .pass then firstNotPassing rs else r := by
  rw [firstNotPassing, find?_cons]
  by_cases hpass : r.action = .pass
  · simp [hpass, firstNotPassing]
  · simp [hpass]

/-! ### When a gate passes -/

theorem evaluateTrustGate_action_eq_pass :
    (evaluateTrustGate env trustTier).action = .pass ↔ env.trustHolds trustTier = false := by
  rw [evaluateTrustGate, Context.trustHolds]
  cases env.minimumTrust with
  | false => exact iff_of_true rfl rfl
  | true =>
    by_cases htier : trustTier = some .unknown
    · simp [htier]
    · simp [htier, ProtectionGateResult.passed]

theorem evaluateTrustGate_of_trustHolds (h : env.trustHolds trustTier) :
    evaluateTrustGate env trustTier = {
      action := .hold
      reason := some (trustedContributorHoldReason env.name (js "unknown"))
      holdType := some .security } := by
  rw [Context.trustHolds, Bool.and_eq_true, decide_eq_true_eq] at h
  rw [evaluateTrustGate, h.1, h.2]
  rfl

theorem evaluateConcurrencyGate_action_eq_pass {limit : Option ℤ} {strategy : ConcurrencyStrategy} :
    (evaluateConcurrencyGate limit strategy running).action = .pass ↔ atLimit limit running = false := by
  rw [evaluateConcurrencyGate]
  cases atLimit limit running with
  | false => exact iff_of_true rfl rfl
  | true => exact iff_of_false GateAction.noConfusion Bool.noConfusion

theorem requiredReviewers_effectiveContext_eq_nil (primary : Context) (envs : List Context) :
    (effectiveContext primary envs).requiredReviewers.getD [] = [] ↔ reviewersOf envs = [] := by
  simp only [eq_nil_iff_forall_not_mem, mem_requiredReviewers_effectiveContext]

theorem evaluateReviewerGate_action_eq_pass :
    (evaluateReviewerGate now (effectiveContext primary envs)).action = .pass ↔
    reviewersOf envs = [] := by
  rw [evaluateReviewerGate, ← requiredReviewers_effectiveContext_eq_nil primary]
  split
  next hnone => exact iff_of_true rfl (eq_nil_of_length_eq_zero hnone)
  next hsome => exact iff_of_false GateAction.noConfusion fun hnil => hsome (congrArg length hnil)

/-- Which gate of the effective context decides: it is enabled, and lets the job through by its
branches. -/
theorem evaluateProtectionRules_effectiveContext :
    evaluateProtectionRules isMatch now (effectiveContext primary envs) ctx running trustTier =
      if (effectiveContext primary envs).trustHolds trustTier = false then
        if atLimit (effectiveContext primary envs).concurrencyLimit running = false then
          if reviewersOf envs = [] then evaluateWaitTimerGate now (effectiveContext primary envs)
          else evaluateReviewerGate now (effectiveContext primary envs)
        else evaluateConcurrencyGate (effectiveContext primary envs).concurrencyLimit
          (effectiveContext primary envs).concurrencyStrategy running
      else evaluateTrustGate (effectiveContext primary envs) trustTier := by
  have hbranch : (evaluateBranchGate isMatch (effectiveContext primary envs) ctx).action = .pass := rfl
  have henabled : (!(effectiveContext primary envs).enabled) = false := rfl
  have htimer : firstNotPassing [evaluateWaitTimerGate now (effectiveContext primary envs)] =
      evaluateWaitTimerGate now (effectiveContext primary envs) := by
    rw [firstNotPassing_cons, evaluateWaitTimerGate]
    split <;> rfl
  rw [evaluateProtectionRules, henabled, if_neg Bool.false_ne_true, firstNotPassing_cons, if_pos hbranch,
    firstNotPassing_cons, firstNotPassing_cons, firstNotPassing_cons, htimer]
  simp only [evaluateTrustGate_action_eq_pass, evaluateConcurrencyGate_action_eq_pass,
    evaluateReviewerGate_action_eq_pass]

end Kici.Contexts
