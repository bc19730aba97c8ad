import Kici.Approvals.Resolver
import Kici.Foundation.System

/-!
# Decisions on a hold

A hold is answered by calls of `applyDecision`, on any number of coordinators. A call reads the
hold, and a reject is recorded and rejects the hold in one transaction. For an approve it lists the
decisions, judges by them and by the teams whether its actor may approve and whether the requirement
is then satisfied (`judge`), and records the approve, in one transaction with the release of the
hold if it is.

A call that judges that clauses remain open records its approve without a look at the row. So two
approvers of different clauses, each of whom does not see the other, leave a hold that is satisfied
and stays pending, and nobody may approve it any more (`exists_approval_lost`). As long as such an
approve is recorded only while a clause that its call left open is met by nothing recorded since,
and the teams do not change in between (`ApprovalState.fenced`), no approval is lost
(`no_approval_lost`).
-/

namespace Kici.Approvals

open List Option

variable {call : DecisionCall} {phase : DecisionPhase} {args : DecisionArgs} {i : ℕ}

inductive HeldRunStatus
  | pending
  | approved
  | rejected
  | expired
  | released
  deriving DecidableEq

/-- What is read and written of a row of `held_runs`. -/
structure HeldRun where
  orgId : JsString
  status : HeldRunStatus
  approvalRequirement : Option ApprovalRequirement
  reason : Option JsString := none

/-- A row of `held_run_approvals`. -/
structure HeldRunApproval where
  approverUserId : JsString
  decision : ApprovalDecision
  clausesSatisfied : Option (List ApproverClause)

/-- A hold, with the decisions that are recorded for it. -/
structure HeldRunDb where
  hold : HeldRun
  approvals : List HeldRunApproval

namespace HeldRunDb

variable (db : HeldRunDb)

def getById (orgId : JsString) : Option HeldRun := if db.hold.orgId = orgId then some db.hold else none

/-- The decisions, oldest first. -/
def listDecisions : List RecordedDecision :=
  db.approvals.map fun row => ⟨row.approverUserId, row.decision⟩

def recordDecision (data : HeldRunApproval) : HeldRunDb :=
  { db with approvals := db.approvals ++ [data] }

/-- The row that an update finds: the one of the organisation, while it is pending. -/
def flips (orgId : JsString) : Bool := db.hold.orgId = orgId && db.hold.status = .pending

/-- Record an approve and release the hold, or throw, with nothing recorded, where it is not
pending. -/
def recordAndRelease (orgId : JsString) (data : HeldRunApproval) : Option HeldRunDb :=
  if db.flips orgId then some
    { db.recordDecision data with hold := { db.hold with status := .approved } } else none

/-- Record a reject and reject the hold, or throw, with nothing recorded, where it is not pending. -/
def recordAndReject (orgId : JsString) (data : HeldRunApproval) (reason : Option JsString) :
    Option HeldRunDb :=
  if db.flips orgId then
    some { db.recordDecision data with
      hold := { db.hold with status := .rejected, reason := reason.or db.hold.reason } }
  else none

end HeldRunDb

/-- A row without a requirement: any single approval. -/
def normalizeRequirement (raw : Option ApprovalRequirement) : ApprovalRequirement := raw.getD ⟨[]⟩

inductive DecisionStatus
  | released
  | rejected
  | pending
  | ineligible
  | notFound

structure ApplyDecisionResult where
  accepted : Bool
  status : DecisionStatus
  remainingClauses : Option ℕ := none
  reason : Option JsString := none

structure DecisionArgs where
  orgId : JsString
  actorSub : JsString
  decision : ApprovalDecision
  reason : Option JsString := none
  /-- Who triggered the run of the hold, and whether that one may approve. -/
  triggererSub : Option JsString := none
  allowSelfApproval : Bool := true

/-- The approve that a call is about. -/
def DecisionArgs.approve (args : DecisionArgs) : RecordedDecision := ⟨args.actorSub, .approve⟩

/-- What a call has judged by, and the clauses that its actor is eligible for. -/
structure Judgment where
  requirement : ApprovalRequirement
  existing : List RecordedDecision
  lookup : TeamDirectory
  clausesSatisfied : List ApproverClause

/-- How far a call is. -/
inductive DecisionPhase
  | getting
  | rejecting
  | listing (requirement : ApprovalRequirement)
  | judging (requirement : ApprovalRequirement) (existing : List RecordedDecision)
  | recording (judgment : Judgment) (remaining : ℕ)
  | releasing (judgment : Judgment)
  /-- Answered, or without an answer where it has thrown or its coordinator has crashed. -/
  | ended (result : Option ApplyDecisionResult)

def DecisionPhase.isEnded : DecisionPhase → Bool
  | .ended _ => true
  | .getting | .rejecting | .listing _ | .judging .. | .recording .. | .releasing _ => false

structure DecisionCall where
  args : DecisionArgs
  /-- The teams, where they are read before the call. -/
  directory : Option TeamDirectory
  phase : DecisionPhase := .getting

def notFoundResult : ApplyDecisionResult :=
  ⟨false, .notFound, none, some (js "held run not found or already resolved")⟩

def ineligibleResult : ApplyDecisionResult :=
  ⟨false, .ineligible, none,
    some (js "actor is not eligible to approve this hold (or self-approval is disabled)")⟩

/-- What `applyDecision` does between its reads and its write. -/
def judge (args : DecisionArgs) (requirement : ApprovalRequirement) (existing : List RecordedDecision)
    (lookup : TeamDirectory) : DecisionPhase :=
  if !canApprove lookup existing args.actorSub requirement
    ⟨args.triggererSub.getD [], args.allowSelfApproval⟩ then
    .ended (some ineligibleResult)
  else
    let clausesSatisfied := requirement.clauses.filter (isActorEligibleForClause lookup args.actorSub)
    let result := evaluate lookup (existing ++ [args.approve]) requirement
    if result.satisfied then .releasing ⟨requirement, existing, lookup, clausesSatisfied⟩
    else .recording ⟨requirement, existing, lookup, clausesSatisfied⟩
      (result.perClause.countP fun c => !c.satisfied)

structure ApprovalState where
  db : HeldRunDb
  directory : TeamDirectory
  calls : List DecisionCall := []

inductive ApprovalAction
  /-- A call begins, for which the teams are read now or when it judges. -/
  | call (args : DecisionArgs) (readsTeams : Bool)
  | callStep (i : ℕ)
  | crash (i : ℕ)
  | setDirectory (directory : TeamDirectory)

namespace ApprovalState

variable (s : ApprovalState)

/-- A call goes on. -/
def goOn (i : ℕ) (call : DecisionCall) (phase : DecisionPhase) : ApprovalState :=
  { s with calls := s.calls.set i { call with phase } }

/-- The next step of a call. -/
def callStep (i : ℕ) (call : DecisionCall) : ApprovalState :=
  match call.phase with
  | .getting =>
    match s.db.getById call.args.orgId with
    | none => s.goOn i call (.ended (some notFoundResult))
    | some hold =>
      if hold.status ≠ .pending then s.goOn i call (.ended (some notFoundResult))
      else
        match call.args.decision with
        | .reject => s.goOn i call .rejecting
        | .approve => s.goOn i call (.listing (normalizeRequirement hold.approvalRequirement))
  | .rejecting =>
    match s.db.recordAndReject call.args.orgId ⟨call.args.actorSub, .reject, none⟩ call.args.reason with
    | some db => { s with db }.goOn i call (.ended (some ⟨true, .rejected, none, none⟩))
    | none => s.goOn i call (.ended none)
  | .listing requirement => s.goOn i call (.judging requirement s.db.listDecisions)
  | .judging requirement existing =>
    s.goOn i call (judge call.args requirement existing (call.directory.getD s.directory))
  | .recording judgment remaining =>
    { s with db := s.db.recordDecision ⟨call.args.actorSub, .approve, some judgment.clausesSatisfied⟩
      }.goOn i call
      (.ended (some ⟨true, .pending, some remaining, none⟩))
  | .releasing judgment =>
    match s.db.recordAndRelease call.args.orgId
        ⟨call.args.actorSub, .approve, some judgment.clausesSatisfied⟩ with
    | some db => { s with db }.goOn i call (.ended (some ⟨true, .released, none, none⟩))
    | none => s.goOn i call (.ended none)
  | .ended _ => s

def step : ApprovalAction → Option ApprovalState
  | .call args readsTeams =>
    some { s with calls := s.calls ++ [⟨args, if readsTeams then some s.directory else none, .getting⟩] }
  | .callStep i => s.calls[i]?.map (s.callStep i)
  | .crash i => s.calls[i]?.map fun call => s.goOn i call (.ended none)
  | .setDirectory directory => some { s with directory }

def status : HeldRunStatus := s.db.hold.status

def requirement : ApprovalRequirement := normalizeRequirement s.db.hold.approvalRequirement

/-- The recorded decisions satisfy the requirement, as the teams now are. -/
def satisfied : Bool := (evaluate s.directory s.db.listDecisions s.requirement).satisfied

/-- A clause that the call left open is met by nothing that was recorded since it listed the
decisions. -/
def leavesOpen (args : DecisionArgs) (judgment : Judgment) : Bool :=
  judgment.requirement.clauses.any fun clause =>
    !(judgment.existing ++ [args.approve]).any (meets judgment.lookup clause) &&
      !(s.db.listDecisions.drop judgment.existing.length).any (meets judgment.lookup clause)

/-- While the hold is pending: a call that judged writes when the teams are as they were then; an
approve that does not release is recorded only while a clause stays open; and the teams change only
so that the recorded approves do not satisfy the requirement. -/
def fenced : ApprovalAction → Bool
  | .callStep i =>
    s.calls[i]?.all fun call =>
      match call.phase with
      | .recording judgment _ =>
        s.status ≠ .pending || judgment.lookup = s.directory && s.leavesOpen call.args judgment
      | .releasing judgment => s.status ≠ .pending || judgment.lookup = s.directory
      | .getting | .rejecting | .listing _ | .judging .. | .ended _ => true
  | .setDirectory directory =>
    s.status ≠ .pending || !(evaluate directory s.db.listDecisions s.requirement).satisfied
  | .call .. | .crash _ => true

end ApprovalState

/-- No call of `applyDecision` is in progress. -/
def ApprovalState.quiescent (s : ApprovalState) : Bool := s.calls.all (·.phase.isEnded)

open ApprovalState

/-- The calls on a hold, which begins pending and with no decision. -/
def approvalSystem : System ApprovalState ApprovalAction where
  init := {s | s.status = .pending ∧ s.db.approvals = [] ∧ s.calls = []}
  step

/-- No approval is lost: without a call in progress, a hold that is satisfied is not pending; and a
step that approves it leaves it with approves that satisfy the requirement, as the teams are
then. -/
structure NoApprovalLost (s : ApprovalState) : Prop where
  not_pending : s.quiescent = true → s.satisfied = true → s.status ≠ .pending
  eligible : ∀ a t, s.fenced a = true → approvalSystem.step s a = some t → s.status = .pending →
    t.status = .approved → t.satisfied = true

variable {s t : ApprovalState} {a : ApprovalAction}

/-! ## What holds in every run -/

/-- What a call relies on: the decisions that it has listed are still the first of those recorded,
and it has judged by them. -/
def PhaseOk (s : ApprovalState) (args : DecisionArgs) : DecisionPhase → Prop
  | .listing requirement => requirement = s.requirement
  | .judging requirement existing => requirement = s.requirement ∧ existing <+: s.db.listDecisions
  | .recording judgment _ =>
    judgment.requirement = s.requirement ∧ judgment.existing <+: s.db.listDecisions
  | .releasing judgment =>
    judgment.requirement = s.requirement ∧ judgment.existing <+: s.db.listDecisions ∧
      (evaluate judgment.lookup (judgment.existing ++ [args.approve])
        judgment.requirement).satisfied = true
  | .getting | .rejecting | .ended _ => True

structure Sound (s : ApprovalState) : Prop where
  calls : ∀ call ∈ s.calls, PhaseOk s call.args call.phase
  /-- Nobody has rejected a hold that is pending. -/
  not_rejected : s.status = .pending → ∀ d ∈ s.db.listDecisions, d.decision ≠ .reject
  not_satisfied : s.status = .pending → s.satisfied = false

/-- A later state has the requirement, and at least the decisions. -/
structure Extends (s t : ApprovalState) : Prop where
  requirement : t.requirement = s.requirement
  decisions : s.db.listDecisions <+: t.db.listDecisions

theorem PhaseOk.mono (h : PhaseOk s args phase) (hext : Extends s t) :
    PhaseOk t args phase := by
  cases phase with
  | listing requirement => exact h.trans hext.requirement.symm
  | judging | recording => exact ⟨h.1.trans hext.requirement.symm, h.2.trans hext.decisions⟩
  | releasing judgment => exact ⟨h.1.trans hext.requirement.symm, h.2.1.trans hext.decisions, h.2.2⟩
  | getting | rejecting | ended => trivial

/-- A call that writes, or does not, goes on. -/
theorem Sound.write (db : HeldRunDb) (h : Sound s)
    (hext : Extends s { s with db }) (hok : PhaseOk { s with db } call.args phase)
    (hpending : db.hold.status = .pending → (∀ d ∈ db.listDecisions, d.decision ≠ .reject) ∧
      ({ s with db } : ApprovalState).satisfied = false) :
    Sound ({ s with db }.goOn i call phase) := by
  refine ⟨fun c hc => ?_, fun hp => (hpending hp).1, fun hp => (hpending hp).2⟩
  rcases mem_or_eq_of_mem_set hc with hold | rfl
  · exact (h.calls c hold).mono ⟨hext.requirement, hext.decisions⟩
  · exact hok.mono ⟨rfl, prefix_refl _⟩

theorem Sound.goOn (h : Sound s) (hok : PhaseOk s call.args phase) : Sound (s.goOn i call phase) :=
  h.write s.db ⟨rfl, prefix_refl _⟩ hok fun hp => ⟨h.not_rejected hp, h.not_satisfied hp⟩

theorem listDecisions_recordDecision (db : HeldRunDb) (data : HeldRunApproval) :
    (db.recordDecision data).listDecisions = db.listDecisions ++
    [⟨data.approverUserId, data.decision⟩] :=
  map_append

/-- What a judgment leads to. -/
theorem PhaseOk.judge {requirement : ApprovalRequirement} {existing : List RecordedDecision}
    (h : PhaseOk s args (.judging requirement existing)) (lookup : TeamDirectory) :
    PhaseOk s args (judge args requirement existing lookup) := by
  rw [Approvals.judge]
  split
  · trivial
  · dsimp only
    split
    next hsatisfied => exact ⟨h.1, h.2, hsatisfied⟩
    next => exact ⟨h.1, h.2⟩

/-- An approve that leaves a clause open does not satisfy the requirement. -/
theorem not_satisfied_of_leavesOpen {judgment : Judgment}
    (hrequirement : judgment.requirement = s.requirement)
    (hpre : judgment.existing <+: s.db.listDecisions) (hopen : s.leavesOpen args judgment) :
    (evaluate judgment.lookup (s.db.listDecisions ++ [args.approve]) s.requirement).satisfied =
    false := by
  rw [leavesOpen] at hopen
  obtain ⟨clause, hmem, hnone⟩ := List.any_eq_true.1 hopen
  obtain ⟨hbefore, hsince⟩ := Bool.and_eq_true_iff.1 hnone
  rw [Bool.not_eq_true', List.any_eq_false] at hbefore hsince
  refine Bool.eq_false_iff.2 fun hsatisfied => ?_
  obtain ⟨d, hd, hmeets⟩ := (satisfied_iff.1 hsatisfied).2.2 clause (hrequirement ▸ hmem)
  -- The approve that meets the clause was listed, or is the call's own, or was recorded since.
  obtain ⟨since, hsplit⟩ := hpre
  rw [← hsplit, drop_left] at hsince
  rw [← hsplit, append_assoc, mem_append, mem_append] at hd
  rcases hd with hd | hd | hd
  · exact hbefore d (mem_append_left _ hd) hmeets
  · exact hsince d hd hmeets
  · exact hbefore d (mem_append_right _ hd) hmeets

theorem Sound.recording {judgment : Judgment} {remaining : ℕ} (h : Sound s)
    (hcall : s.calls[i]? = some call) (hphase : call.phase = .recording judgment remaining)
    (hfenced : s.fenced (.callStep i)) :
    Sound ({ s with
      db := s.db.recordDecision ⟨call.args.actorSub, .approve, some judgment.clausesSatisfied⟩ }.goOn
      i call
        (.ended (some ⟨true, .pending, some remaining, none⟩))) := by
  have hok := h.calls call (mem_of_getElem? hcall)
  rw [hphase] at hok
  rw [fenced, hcall, all_some, hphase] at hfenced
  have hlist := listDecisions_recordDecision s.db
    ⟨call.args.actorSub, .approve, some judgment.clausesSatisfied⟩
  refine h.write _ ⟨rfl, hlist ▸ prefix_append _ _⟩ trivial fun hpending => ?_
  have hstatus : s.status = .pending := hpending
  dsimp only at hfenced
  rw [hstatus] at hfenced
  obtain ⟨hlookup, hopen⟩ := Bool.and_eq_true_iff.1 hfenced
  constructor
  · intro d hd
    rw [hlist] at hd
    rcases mem_append.1 hd with hold | hnew
    · exact h.not_rejected hstatus d hold
    · obtain rfl := mem_singleton.1 hnew
      exact ApprovalDecision.noConfusion
  · have hnot := not_satisfied_of_leavesOpen hok.1 hok.2 hopen
    rw [of_decide_eq_true hlookup] at hnot
    rw [satisfied]
    exact hlist ▸ hnot

open HeldRunDb

theorem Sound.callStep (h : Sound s) (hcall : s.calls[i]? = some call)
    (hfenced : s.fenced (.callStep i)) : Sound (s.callStep i call) := by
  have hok := h.calls call (mem_of_getElem? hcall)
  rw [ApprovalState.callStep]
  cases hphase : call.phase with
  | getting =>
    dsimp only
    rw [getById]
    split
    · exact h.goOn trivial
    next hold hget =>
      have hhold : hold = s.db.hold := by
        split at hget
        · exact (some.inj hget).symm
        · cases hget
      split
      · exact h.goOn trivial
      · split
        · exact h.goOn trivial
        · rw [hhold]
          exact h.goOn rfl
  | rejecting =>
    dsimp only
    split
    next db hdb =>
      rw [recordAndReject] at hdb
      split at hdb
      · cases hdb
        have hlist := listDecisions_recordDecision s.db ⟨call.args.actorSub, .reject, none⟩
        exact h.write _ ⟨rfl, hlist ▸ prefix_append _ _⟩ trivial nofun
      · cases hdb
    next => exact h.goOn trivial
  | listing requirement =>
    rw [hphase] at hok
    exact h.goOn ⟨hok, prefix_refl _⟩
  | judging requirement existing =>
    rw [hphase] at hok
    exact h.goOn (hok.judge _)
  | recording judgment remaining => exact h.recording hcall hphase hfenced
  | releasing judgment =>
    dsimp only
    split
    next db hdb =>
      rw [recordAndRelease] at hdb
      split at hdb
      · cases hdb
        have hlist := listDecisions_recordDecision s.db
          ⟨call.args.actorSub, .approve, some judgment.clausesSatisfied⟩
        exact h.write _ ⟨rfl, hlist ▸ prefix_append _ _⟩ trivial nofun
      · cases hdb
    next => exact h.goOn trivial
  | ended result => exact h

theorem Sound.step (h : Sound s) (hfenced : s.fenced a) (hstep : approvalSystem.step s a = some t) :
    Sound t := by
  cases a with
  | call args readsTeams =>
    cases hstep
    refine ⟨fun c hc => ?_, h.not_rejected, h.not_satisfied⟩
    rcases mem_append.1 hc with hold | hnew
    · exact (h.calls c hold).mono ⟨rfl, prefix_refl _⟩
    · obtain rfl := mem_singleton.1 hnew
      trivial
  | callStep i =>
    obtain ⟨call, hcall, rfl⟩ := map_eq_some_iff.1 hstep
    exact h.callStep hcall hfenced
  | crash i =>
    obtain ⟨call, -, rfl⟩ := map_eq_some_iff.1 hstep
    exact h.goOn trivial
  | setDirectory directory =>
    cases hstep
    refine ⟨fun c hc => (h.calls c hc).mono ⟨rfl, prefix_refl _⟩, h.not_rejected, fun hpending => ?_⟩
    have hstatus : s.status = .pending := hpending
    rw [fenced, hstatus] at hfenced
    have hnot : (evaluate directory s.db.listDecisions s.requirement).satisfied = false := by
      simpa using hfenced
    exact hnot

theorem sound_init (h : s ∈ approvalSystem.init) : Sound s := by
  obtain ⟨-, happrovals, hcalls⟩ := h
  have hnone : s.db.listDecisions = [] := by
    rw [listDecisions, happrovals]
    rfl
  refine ⟨fun c hc => ?_, fun _ d hd => ?_, fun _ => ?_⟩
  · rw [hcalls] at hc
    cases hc
  · rw [hnone] at hd
    cases hd
  · refine Bool.eq_false_iff.2 fun hsatisfied => ?_
    rw [satisfied, hnone] at hsatisfied
    obtain ⟨-, hany, hall⟩ := satisfied_iff.1 hsatisfied
    cases hclauses : s.requirement.clauses with
    | nil =>
      obtain ⟨d, hd, -⟩ := hany hclauses
      cases hd
    | cons clause clauses =>
      obtain ⟨d, hd, -⟩ := hall clause (hclauses ▸ mem_cons_self)
      cases hd

/-- A step that approves the hold is the release of a call that judged that the requirement is
satisfied. -/
theorem releasing_of_approved (hstep : approvalSystem.step s a = some t) (hpending : s.status = .pending)
    (happroved : t.status = .approved) : ∃ i call judgment, a = .callStep i ∧ s.calls[i]? = some call ∧
      call.phase = .releasing judgment ∧ t.directory = s.directory ∧ t.requirement = s.requirement ∧
      t.db.listDecisions = s.db.listDecisions ++ [call.args.approve] := by
  have hne : s.status ≠ .approved := by
    rw [hpending]
    exact HeldRunStatus.noConfusion
  cases a with
  | call | setDirectory =>
    cases hstep
    exact absurd happroved hne
  | crash i =>
    obtain ⟨call, -, rfl⟩ := map_eq_some_iff.1 hstep
    exact absurd happroved hne
  | callStep i =>
    obtain ⟨call, hcall, rfl⟩ := map_eq_some_iff.1 hstep
    rw [callStep] at happroved ⊢
    cases hphase : call.phase with
    | getting =>
      rw [hphase] at happroved
      dsimp only at happroved
      split at happroved
      · exact absurd happroved hne
      · split at happroved
        · exact absurd happroved hne
        · split at happroved <;> exact absurd happroved hne
    | rejecting =>
      rw [hphase] at happroved
      dsimp only at happroved
      split at happroved
      next db hdb =>
        rw [recordAndReject] at hdb
        split at hdb <;> cases hdb
        cases happroved
      next => exact absurd happroved hne
    | listing | judging | recording | ended =>
      rw [hphase] at happroved
      exact absurd happroved hne
    | releasing judgment =>
      rw [hphase] at happroved
      dsimp only at happroved ⊢
      split at happroved
      next db hdb =>
        rw [recordAndRelease] at hdb
        split at hdb
        · cases hdb
          exact ⟨i, call, judgment, rfl, hcall, hphase, rfl, rfl,
            listDecisions_recordDecision s.db
              ⟨call.args.actorSub, .approve, some judgment.clausesSatisfied⟩⟩
        · cases hdb
      next => exact absurd happroved hne

/-- As long as an approve that does not release is recorded only while a clause stays open that its
call left open, and the teams do not change between a judgment and its write, nor so that what is
recorded is satisfied, no approval is lost. -/
theorem no_approval_lost (h : approvalSystem.Reachable (fun s a => s.fenced a) s) :
    NoApprovalLost s := by
  have hsound : Sound s := h.invariant (fun s hinit => sound_init hinit) fun s a t hs hfenced hstep =>
    hs.step hfenced hstep
  constructor
  · intro _ hsatisfied hpending
    rw [hsound.not_satisfied hpending] at hsatisfied
    cases hsatisfied
  · intro a t hfenced hstep hpending happroved
    obtain ⟨i, call, judgment, rfl, hcall, hphase, hdirectory, hrequirement, hlist⟩ :=
      releasing_of_approved hstep hpending happroved
    have hok := hsound.calls call (mem_of_getElem? hcall)
    rw [hphase] at hok
    obtain ⟨hreq, hpre, hsatisfied⟩ := hok
    rw [fenced, hcall, all_some, hphase] at hfenced
    dsimp only at hfenced
    rw [hpending] at hfenced
    have hlookup : judgment.lookup = s.directory := of_decide_eq_true hfenced
    rw [satisfied, hdirectory, hrequirement, hlist, ← hlookup, ← hreq]
    refine satisfied_of_subset hsatisfied (fun d hd => ?_) fun d hd => ?_
    · rcases mem_append.1 hd with hold | hnew
      · exact mem_append_left _ (hpre.subset hold)
      · exact mem_append_right _ hnew
    · rcases mem_append.1 hd with hold | hnew
      · exact hsound.not_rejected hpending d hold
      · obtain rfl := mem_singleton.1 hnew
        exact ApprovalDecision.noConfusion

/-! ### Two approvers -/

/-- A hold that Alice and Bob have to approve. -/
def heldForTwo : ApprovalState where
  db := ⟨⟨js "acme", .pending, some ⟨[.user (js "alice"), .user (js "bob")]⟩, none⟩, []⟩
  directory := []

def approveBy (user : JsString) : DecisionArgs where
  orgId := js "acme"
  actorSub := user
  decision := .approve

/-- The steps of a call: it gets the hold, lists the decisions, judges and records. -/
def wholeCall (i : ℕ) : List ApprovalAction := List.replicate 4 (.callStep i)

theorem heldForTwo_mem_init : heldForTwo ∈ approvalSystem.init := ⟨rfl, rfl, rfl⟩

/-- One after the other, and the hold is approved. -/
theorem no_approval_lost_one_by_one : ∃ s, s.status = .approved ∧ NoApprovalLost s := by
  have hrun : (approvalSystem.run fenced heldForTwo
      (.call (approveBy (js "alice")) false :: wholeCall 0 ++
        .call (approveBy (js "bob")) true :: wholeCall 1)).any
        (fun s => s.status = .approved) := by decide
  obtain ⟨s, hpath, happroved⟩ := System.exists_path_of_run (fun _ _ h => h) _ hrun
  exact ⟨s, of_decide_eq_true happroved, no_approval_lost ⟨heldForTwo, heldForTwo_mem_init, hpath⟩⟩

/-- Both list the decisions before either records: the hold is satisfied and pending, and nobody may
approve it. -/
theorem exists_approval_lost : ∃ s, approvalSystem.Reachable System.anyStep s ∧ s.quiescent ∧
    s.satisfied ∧ s.status = .pending ∧
      ∀ actorSub ctx, canApprove s.directory s.db.listDecisions actorSub s.requirement ctx = false := by
  have hrun : (approvalSystem.run (fun _ _ => true) heldForTwo
      (.call (approveBy (js "alice")) false :: .call (approveBy (js "bob")) false ::
        .callStep 0 :: .callStep 0 :: wholeCall 1 ++ [.callStep 0, .callStep 0])).any
        (fun s => decide (s.quiescent ∧ s.satisfied ∧ s.status = .pending ∧
          s.requirement.clauses ≠ [])) := by decide
  obtain ⟨s, hpath, hs⟩ := System.exists_path_of_run System.anyStep_of_true _ hrun
  obtain ⟨hquiescent, hsatisfied, hpending, hclauses⟩ := of_decide_eq_true hs
  exact ⟨s, ⟨heldForTwo, heldForTwo_mem_init, hpath⟩, hquiescent, hsatisfied, hpending,
    canApprove_of_satisfied hsatisfied hclauses⟩

end Kici.Approvals
