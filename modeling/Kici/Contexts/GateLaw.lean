import Kici.Contexts.GateRuns

/-!
# No gate is swallowed

A job that is handed to the dispatcher has an approve for each reviewer that its contexts require
and for each clause of its explicit approvals, and an approved security hold where a trust rule held
its run (`GatesPassed`): as long as the gate that decides in the dispatch pass leaves all clauses on
the hold, no call goes on past a hold that was rejected or has expired, and no upstream of a job
gets a terminal status for which the job goes on without a dispatch of any (`GateState.careful`),
this holds in every run (`gates_passed`).

The pass stops at the first gate that does not pass and stores its hold alone. So a job that
requires a reviewer and finds no slot is queued, and handed over when a slot is free, without an
approval (`exists_gate_swallowed`).

A hold that ends goes from pending to what it ends as, and keeps what it asks for and its decisions
(`HoldRow.Le`); what a hold that is approved has been asked for is met by them (`HoldRow.Ok`). So a
call that has found no hold pending has all approvals (`Cleared`), of the holds that the pass has
stored (`Covers`).
-/

namespace Kici.Contexts

open List Option Kici.Approvals Bool HeldRunDb HeldRunStatus

variable {f : HoldRow → Option HoldRow} {status : HeldRunStatus} {lookup : TeamDirectory}
variable {isMatch : JsString → JsString → Bool} {directories' : List TeamDirectory}
  {phase : ReadyPhase} {k : ℕ} {orgId : JsString}

/-- A recorded approve on a hold of the job satisfied the clause, as the teams were at some time. -/
def ApprovedOn (s : GateState) (i : ℕ) (c : ApproverClause) : Prop :=
  ∃ row ∈ (s.jobs i).holds, ∃ d ∈ row.db.listDecisions, ∃ lookup ∈ s.directories, meets lookup c d = true

/-- What has to be before a job is handed to the dispatcher. The approval of the workflow is asked
for on the holds of its roots, which other jobs come after. -/
structure GatesPassed (run : GatedRun) (s : GateState) (i : ℕ) (job : GatedJob) : Prop where
  reviewers : ∀ reviewer ∈ reviewersOf job.envs, ApprovedOn s i (.user reviewer)
  approval : ∀ c ∈ job.approval.elim [] (·.clauses), ApprovedOn s i c
  workflow_root : job.isRootJob = true → ∀ c ∈ run.approval.elim [] (·.clauses), ApprovedOn s i c
  workflow : ∀ c ∈ run.approval.elim [] (·.clauses), ∃ u, ApprovedOn s u c
  trust : run.trustHolds job = true → ∃ row ∈ (s.jobs i).holds, row.queueType = .security ∧
    row.status = .approved

namespace HoldRow

/-- The job waits for an answer to the hold: clauses to be met, or a security approval. -/
def asks (row : HoldRow) : Bool := row.requirement.isSome || decide (row.queueType = .security)

/-- A hold that asks for an answer has been rejected, or has expired. -/
def refused (row : HoldRow) : Bool :=
  row.asks && (decide (row.status = .rejected) || decide (row.status = .expired))

end HoldRow

/-- The gate that decides leaves all clauses on the hold; or it leaves no hold, and the job is never
stored. -/
def GatedRun.passCovers (run : GatedRun) (job : GatedJob) (occupied : ℕ) : Bool :=
  !run.heldRunStore && run.gateHolds job occupied ||
    (run.neededClauses job).all fun c => (run.carriedClauses job occupied).contains c

/-- The approval of the workflow is there, by an upstream that has been handed to the dispatcher. -/
def GateState.followsRoot (s : GateState) (run : GatedRun) (job : GatedJob) : Bool :=
  job.isRootJob || (run.approval.elim [] (·.clauses)).isEmpty || job.needs.any fun u => (s.jobs u).handed

/-- No gate gets lost: in the pass, before a call goes on past the holds, and before it goes on past
the upstreams. -/
def GateState.careful (isMatch : JsString → JsString → Bool) (run : GatedRun) (s : GateState) :
    GateStep → Bool
  | .pass i occupied _ _ =>
    run.jobs[i]?.all fun job => run.rejects isMatch job || run.passCovers job occupied
  | .callStep i k _ _ _ =>
    match (s.jobs i).calls[k]? with
    | some .holdCheck => (s.jobs i).holds.all fun row => !row.refused
    | some .needs => run.jobs[i]?.all (s.followsRoot run)
    | _ => true
  | _ => true

/-! ## Holds -/

/-- A hold later: what it asks for is the same, its decisions are still there, and it is not pending
again. -/
structure HoldRow.Le (row row' : HoldRow) : Prop where
  holdType : row'.holdType = row.holdType
  queueType : row'.queueType = row.queueType
  requirement : row'.requirement = row.requirement
  status : row.status ≠ .pending → row'.status = row.status
  decisions : ∀ d ∈ row.db.listDecisions, d ∈ row'.db.listDecisions

theorem HoldRow.Le.refl (row : HoldRow) : row.Le row := ⟨rfl, rfl, rfl, fun _ => rfl, fun _ h => h⟩

/-- What an approve meets, as the teams were at some time. -/
def MetBy (directories : List TeamDirectory) (db : HeldRunDb) (c : ApproverClause) : Prop :=
  ∃ d ∈ db.listDecisions, ∃ lookup ∈ directories, meets lookup c d = true

/-- A hold that is approved has the approves that it asks for, and only a timer releases without an
approval. -/
structure HoldRow.Ok (directories : List TeamDirectory) (row : HoldRow) : Prop where
  reviewer : row.requirement ≠ none → row.holdType = .reviewer
  approved : row.status = .approved → ∀ requirement, row.requirement = some requirement →
    ∀ c ∈ requirement.clauses, MetBy directories row.db c
  released : row.status = .released → row.holdType = .timer

variable {directories : List TeamDirectory} {row row' : HoldRow} {c : ApproverClause}

theorem HoldRow.Fresh.ok (h : row.Fresh) : row.Ok directories :=
  ⟨h.reviewer, fun happroved => absurd (happroved.symm.trans h.pending) noConfusion,
    fun hreleased => absurd (hreleased.symm.trans h.pending) noConfusion⟩

theorem MetBy.mono {db db' : HeldRunDb} (h : MetBy directories db c)
    (hdecisions : ∀ d ∈ db.listDecisions, d ∈ db'.listDecisions)
    (hdirectories : directories ⊆ directories') : MetBy directories' db' c := by
  obtain ⟨d, hd, lookup, hlookup, hmeets⟩ := h
  exact ⟨d, hdecisions d hd, lookup, hdirectories hlookup, hmeets⟩

theorem HoldRow.Ok.mono (h : row.Ok directories) (hdirectories : directories ⊆ directories') :
    row.Ok directories' :=
  ⟨h.reviewer, fun happroved requirement hrequirement c hc =>
    (h.approved happroved requirement hrequirement c hc).mono (fun _ hd => hd) hdirectories, h.released⟩

/-- A hold that asks for an answer, and is neither pending nor refused, is approved. -/
theorem HoldRow.Ok.approved_of_asks (h : row.Ok directories) (hasks : row.asks)
    (hpending : row.status ≠ .pending) (hrefused : row.refused = false) : row.status = .approved := by
  rw [refused, hasks, Bool.true_and, or_eq_false_iff, decide_eq_false_iff_not,
    decide_eq_false_iff_not] at hrefused
  cases hstatus : row.status with
  | approved => rfl
  | pending => exact absurd hstatus hpending
  | rejected => exact absurd hstatus hrefused.1
  | expired => exact absurd hstatus hrefused.2
  | released =>
    have htimer := h.released hstatus
    rw [asks, or_eq_true, decide_eq_true_eq] at hasks
    rcases hasks with hsome | hsecurity
    · have hreviewer := h.reviewer (isSome_iff_ne_none.1 hsome)
      exact absurd (htimer.symm.trans hreviewer) HoldType.noConfusion
    · exact absurd (htimer.symm.trans (row.security hsecurity)) HoldType.noConfusion

/-- An answer to a hold: it goes on as it should. -/
structure Answers (directories : List TeamDirectory) (f : HoldRow → Option HoldRow) : Prop where
  le : ∀ row row', f row = some row' → row.Le row'
  ok : ∀ row row', f row = some row' → row.Ok directories → row'.Ok directories

theorem pending_of_flip {reason : Option JsString} (h : row.flip status reason = some row') :
    row.status = .pending ∧ row'.status = status ∧ row'.requirement = row.requirement ∧
      row'.holdType = row.holdType ∧ row.Le row' := by
  rw [HoldRow.flip] at h
  split at h
  next hpending =>
    rw [← some.inj h]
    exact ⟨hpending, rfl, rfl, rfl, rfl, rfl, rfl, fun hne => absurd hpending hne, fun _ hd => hd⟩
  next => cases h

/-- A status that is neither an approval nor a release. -/
theorem answers_flip (reason : Option JsString) (happroved : status ≠ .approved)
    (hreleased : status ≠ .released) : Answers directories fun row => row.flip status reason := by
  refine ⟨fun row row' h => (pending_of_flip h).2.2.2.2, fun row row' h hok => ?_⟩
  obtain ⟨-, hstatus, hrequirement, hholdType, -⟩ := pending_of_flip h
  refine ⟨fun hne => ?_, fun h' => absurd (hstatus.symm.trans h') happroved,
    fun h' => absurd (hstatus.symm.trans h') hreleased⟩
  rw [hholdType]
  exact hok.reviewer (hrequirement ▸ hne)

/-- An approval of a hold that asks for no clauses. -/
theorem answers_approve {test : HoldRow → Bool} (htest : ∀ row, test row → row.holdType ≠ .reviewer) :
    Answers directories fun row => if test row then row.flip .approved else none := by
  constructor
  · intro row row' h
    split at h
    · exact (pending_of_flip h).2.2.2.2
    · cases h
  · intro row row' h hok
    split at h
    next hrow =>
      obtain ⟨-, hstatus, hrequirement, hholdType, -⟩ := pending_of_flip h
      have hnone : row.requirement = none := by
        by_contra hne
        exact htest row hrow (hok.reviewer hne)
      refine ⟨fun hne => absurd (hrequirement.trans hnone) hne, fun _ requirement hsome => ?_,
        fun h' => absurd (hstatus.symm.trans h') noConfusion⟩
      rw [hrequirement, hnone] at hsome
      cases hsome
    next => cases h

theorem answers_approveByQueueType : Answers directories HoldRow.approveByQueueType := by
  have heq : HoldRow.approveByQueueType = fun row =>
      if decide (row.queueType = .security) then row.flip .approved else none := by
    funext row
    simp only [HoldRow.approveByQueueType, decide_eq_true_eq]
  rw [heq]
  refine answers_approve fun row hsecurity => ?_
  rw [row.security (of_decide_eq_true hsecurity)]
  exact HoldType.noConfusion

theorem answers_releaseQueued (limit : Option ℤ) (occupied : ℕ) :
    Answers directories fun row => row.releaseQueued limit occupied := by
  refine answers_approve fun row h => ?_
  rw [and_eq_true, decide_eq_true_eq] at h
  rw [h.1]
  exact HoldType.noConfusion

theorem answers_releaseDueWait : Answers directories HoldRow.releaseDueWait := by
  constructor
  · intro row row' h
    rw [HoldRow.releaseDueWait] at h
    split at h
    · exact (pending_of_flip h).2.2.2.2
    · cases h
  · intro row row' h hok
    rw [HoldRow.releaseDueWait] at h
    split at h
    next htimer =>
      obtain ⟨-, hstatus, hrequirement, hholdType, -⟩ := pending_of_flip h
      refine ⟨fun hne => ?_, fun h' => absurd (hstatus.symm.trans h') noConfusion, fun _ => ?_⟩
      · rw [hholdType]
        exact hok.reviewer (hrequirement ▸ hne)
      · rw [hholdType, htimer]
    next => cases h

/-! ### Decisions -/

/-- A call that releases has found all clauses met, its own approve among the decisions. -/
theorem satisfied_of_judge {args : DecisionArgs} {requirement : ApprovalRequirement}
    {existing : List RecordedDecision} {judgment : Judgment}
    (h : judge args requirement existing lookup = .releasing judgment) :
    (evaluate lookup (existing ++ [args.approve]) requirement).satisfied := by
  rw [judge] at h
  split at h
  · cases h
  · dsimp only at h
    split at h
    next hsatisfied => exact hsatisfied
    next => cases h

/-- What a decision writes. -/
structure DecisionWrites (directories : List TeamDirectory) (db db' : HeldRunDb) : Prop where
  requirement : db'.hold.approvalRequirement = db.hold.approvalRequirement
  decisions : ∀ d ∈ db.listDecisions, d ∈ db'.listDecisions
  status : db'.hold.status = db.hold.status ∨ db.hold.status = .pending ∧ db'.hold.status = .rejected ∨
    db.hold.status = .pending ∧ db'.hold.status = .approved ∧
      ∀ requirement, db.hold.approvalRequirement = some requirement →
        ∀ c ∈ requirement.clauses, MetBy directories db' c

theorem mem_listDecisions_recordDecision {db : HeldRunDb} {data : HeldRunApproval} {d : RecordedDecision}
    (hd : d ∈ db.listDecisions) : d ∈ (db.recordDecision data).listDecisions := by
  rw [listDecisions_recordDecision]
  exact mem_append_left _ hd

theorem decisionWrites_applyDecision {db db' : HeldRunDb} {args : DecisionArgs} {listed : ℕ}
    (hlookup : lookup ∈ directories)
    (h : applyDecision db args (db.listDecisions.take listed) lookup = some db') :
    DecisionWrites directories db db' := by
  rw [applyDecision] at h
  split at h
  · cases h
  next hold _ hget hdecision =>
    rw [recordAndReject] at h
    split at h
    next hflips =>
      rw [flips, and_eq_true, decide_eq_true_eq, decide_eq_true_eq] at hflips
      rw [← some.inj h]
      exact ⟨rfl, fun d hd => mem_listDecisions_recordDecision hd, .inr (.inl ⟨hflips.2, rfl⟩)⟩
    next => cases h
  next hold hget hdecision =>
    have hhold : hold = db.hold := by
      rw [getById] at hget
      split at hget
      · exact (some.inj hget).symm
      · cases hget
    split at h
    next judgment _ _ =>
      rw [← some.inj h]
      exact ⟨rfl, fun d hd => mem_listDecisions_recordDecision hd, .inl rfl⟩
    next judgment hjudge =>
      rw [recordAndRelease] at h
      split at h
      next hflips =>
        rw [flips, and_eq_true, decide_eq_true_eq, decide_eq_true_eq] at hflips
        rw [← some.inj h]
        refine ⟨rfl, fun d hd => mem_listDecisions_recordDecision hd,
          .inr (.inr ⟨hflips.2, rfl, fun requirement hrequirement c hc => ?_⟩)⟩
        have hsatisfied := satisfied_of_judge hjudge
        rw [hhold, hrequirement] at hsatisfied
        obtain ⟨d, hd, hmeets⟩ := (satisfied_iff.1 hsatisfied).2.2 c hc
        refine ⟨d, ?_, lookup, hlookup, hmeets⟩
        -- The approve that meets the clause was listed, or is the call's own.
        rcases mem_append.1 hd with hold | hnew
        · exact mem_listDecisions_recordDecision (mem_of_mem_take hold)
        · obtain rfl := mem_singleton.1 hnew
          change args.approve ∈ (db.recordDecision _).listDecisions
          rw [listDecisions_recordDecision]
          exact mem_append_right _ (mem_singleton.2 rfl)
      next => cases h
    all_goals cases h

theorem answers_onDecision (args : DecisionArgs) (listed read : ℕ) :
    Answers directories fun row => row.onDecision directories args listed read := by
  have hwrites : ∀ row row' : HoldRow, row.onDecision directories args listed read = some row' →
      ∃ db, row' = { row with db } ∧ DecisionWrites directories row.db db := by
    intro row row' h
    rw [HoldRow.onDecision] at h
    split at h
    · cases h
    next lookup hread =>
      obtain ⟨db, hdb, rfl⟩ := map_eq_some_iff.1 h
      exact ⟨db, rfl, decisionWrites_applyDecision (mem_of_getElem? hread) hdb⟩
  constructor
  · intro row row' h
    obtain ⟨db, rfl, hdb⟩ := hwrites row row' h
    refine ⟨rfl, rfl, hdb.requirement, fun hne => ?_, hdb.decisions⟩
    rcases hdb.status with hsame | ⟨hpending, -⟩ | ⟨hpending, -⟩
    · exact hsame
    · exact absurd hpending hne
    · exact absurd hpending hne
  · intro row row' h hok
    obtain ⟨db, rfl, hdb⟩ := hwrites row row' h
    refine ⟨fun hne => hok.reviewer fun hnone => hne (hdb.requirement.trans hnone),
      fun happroved requirement hrequirement c hc => ?_,
      fun hreleased => ?_⟩
    · have hrow : row.requirement = some requirement := hdb.requirement.symm.trans hrequirement
      rcases hdb.status with hsame | ⟨-, hrejected⟩ | ⟨-, -, hmet⟩
      · exact (hok.approved (hsame.symm.trans happroved) requirement hrow c hc).mono hdb.decisions
          (List.Subset.refl _)
      · exact absurd (happroved.symm.trans hrejected) noConfusion
      · exact hmet requirement hrow c hc
    · rcases hdb.status with hsame | ⟨-, hrejected⟩ | ⟨-, happroved, -⟩
      · exact hok.released (hsame.symm.trans hreleased)
      · exact absurd (hreleased.symm.trans hrejected) noConfusion
      · exact absurd (hreleased.symm.trans happroved) noConfusion

/-! ## Jobs -/

/-- A call has found no hold pending. -/
def ReadyPhase.pastHoldCheck : ReadyPhase → Bool
  | .needs | .slot | .consume | .dispatching => true
  | .holdCheck | .ended => false

/-- A call has found that the upstreams let the job run. -/
def ReadyPhase.pastNeeds : ReadyPhase → Bool
  | .slot | .consume | .dispatching => true
  | .holdCheck | .needs | .ended => false

/-- All holds that ask for an answer are approved. -/
def Cleared (holds : List HoldRow) : Prop := ∀ row ∈ holds, row.asks = true → row.status = .approved

/-- The holds ask for all that the job needs. -/
abbrev Covers (run : GatedRun) (job : GatedJob) (holds : List HoldRow) : Prop :=
  run.AsksFor job (run.neededClauses job) holds

namespace JobState

/-- The job has been handed over, or a call is about to do so. -/
def leaves (j : JobState) : Bool := j.pendingContext || j.handed || j.calls.contains .dispatching

def checked (j : JobState) : Bool := j.handed || j.calls.any (·.pastHoldCheck)

def follows (j : JobState) : Bool := j.handed || j.calls.any (·.pastNeeds)

/-- What holds of a job that the pass has been over. -/
structure Ok (run : GatedRun) (directories : List TeamDirectory) (job : GatedJob) (j : JobState) :
    Prop where
  rows : ∀ row ∈ j.holds, row.Ok directories
  covers : j.leaves = true → Covers run job j.holds
  cleared : j.checked = true → Cleared j.holds

end JobState

/-- Each hold is still there, later. -/
def HoldsLe (holds holds' : List HoldRow) : Prop := ∀ row ∈ holds, ∃ row' ∈ holds', row.Le row'

variable {run : GatedRun} {job : GatedJob} {j j' : JobState} {holds holds' : List HoldRow}

theorem HoldsLe.refl (holds : List HoldRow) : HoldsLe holds holds :=
  fun row hrow => ⟨row, hrow, .refl row⟩

theorem GatedRun.AsksFor.mono {clauses : List ApproverClause} (h : run.AsksFor job clauses holds)
    (hle : HoldsLe holds holds') : run.AsksFor job clauses holds' := by
  constructor
  · intro c hc
    obtain ⟨row, hrow, requirement, hrequirement, hmem⟩ := h.carried c hc
    obtain ⟨row', hrow', hle⟩ := hle row hrow
    exact ⟨row', hrow', requirement, hle.requirement.trans hrequirement, hmem⟩
  · intro htrust
    obtain ⟨row, hrow, hsecurity⟩ := h.security htrust
    obtain ⟨row', hrow', hle⟩ := hle row hrow
    exact ⟨row', hrow', hle.queueType.trans hsecurity⟩

/-! ### Answers to a hold -/

/-- What an answer changes of a job: one of its holds. -/
structure Answered (directories : List TeamDirectory) (j j' : JobState) : Prop where
  same : j' = { j with holds := j'.holds }
  le : HoldsLe j.holds j'.holds
  rows : (∀ row ∈ j.holds, row.Ok directories) → ∀ row ∈ j'.holds, row.Ok directories
  cleared : Cleared j.holds → Cleared j'.holds

theorem HoldRow.Le.asks (h : row.Le row') : row'.asks = row.asks := by
  rw [HoldRow.asks, HoldRow.asks, h.requirement, h.queueType]

theorem answered_onHold {h : ℕ} (hf : Answers directories f)
    (hj : j.onHold h f = some j') : Answered directories j j' := by
  obtain ⟨row', hrow', rfl⟩ := map_eq_some_iff.1 hj
  obtain ⟨row, hrow, hfrow⟩ := bind_eq_some_iff.1 hrow'
  have hmem : row ∈ j.holds := mem_of_getElem? hrow
  have hle := hf.le row row' hfrow
  have hlt : h < j.holds.length := (List.getElem?_eq_some_iff.1 hrow).1
  refine ⟨rfl, fun r hr => ?_, fun hok r hr => ?_, fun hcleared r hr hasks => ?_⟩
  · obtain ⟨k, hk⟩ := mem_iff_getElem?.1 hr
    by_cases hkh : k = h
    · subst hkh
      have hsame : r = row := some.inj (hk.symm.trans hrow)
      subst hsame
      exact ⟨row', mem_iff_getElem?.2 ⟨k, getElem?_set_self hlt⟩, hle⟩
    · refine ⟨r, mem_iff_getElem?.2 ⟨k, ?_⟩, .refl r⟩
      rw [getElem?_set_ne (Ne.symm hkh)]
      exact hk
  · rcases mem_or_eq_of_mem_set hr with hold | rfl
    · exact hok r hold
    · exact hf.ok row r hfrow (hok row hmem)
  · rcases mem_or_eq_of_mem_set hr with hold | rfl
    · exact hcleared r hold hasks
    · have happroved := hcleared row hmem (hle.asks ▸ hasks)
      have hne : row.status ≠ .pending := fun hpending => noConfusion (hpending.symm.trans happroved)
      exact (hle.status hne).trans happroved

theorem JobState.Ok.answered (h : j.Ok run directories job) (hanswered : Answered directories j j') :
    j'.Ok run directories job := by
  have hsame := hanswered.same
  refine ⟨hanswered.rows h.rows, fun hleaves => ?_, fun hchecked => ?_⟩
  · rw [hsame] at hleaves
    exact (h.covers hleaves).mono hanswered.le
  · rw [hsame] at hchecked
    exact hanswered.cleared (h.cleared hchecked)

/-! ### Calls -/

theorem JobState.Ok.mono (h : j.Ok run directories job)
    (hdirectories : directories ⊆ directories') : j.Ok run directories' job :=
  ⟨fun row hrow => (h.rows row hrow).mono hdirectories, h.covers, h.cleared⟩

/-- A job whose holds stay, of which no more is so than was. -/
theorem JobState.Ok.of_eq (h : j.Ok run directories job) (hholds : j'.holds = j.holds)
    (hcovers : j'.leaves → j.leaves) (hcleared : j'.checked → Cleared j.holds) :
    j'.Ok run directories job := by
  refine ⟨fun row hrow => h.rows row (hholds ▸ hrow), fun hleaves => ?_, fun hchecked => ?_⟩
  · rw [hholds]
    exact h.covers (hcovers hleaves)
  · rw [hholds]
    exact hcleared hchecked

theorem mem_goOn_calls {phase p : ReadyPhase} (hp : p ∈ (j.goOn k phase).calls) :
    p ∈ j.calls ∨ p = phase :=
  mem_or_eq_of_mem_set hp

section

variable (h : j.Ok run directories job)
include h

/-- A call goes on: past the holds where none is pending or refused, and to the end of its
consumption where the job was there. -/
theorem JobState.Ok.goOn
    (hcleared : phase.pastHoldCheck → Cleared j.holds) (hcovers : phase ≠ .dispatching) :
    (j.goOn k phase).Ok run directories job := by
  refine h.of_eq rfl (fun hleaves => ?_) fun hchecked => ?_
  · simp only [leaves, or_eq_true, contains_iff_mem] at hleaves ⊢
    refine hleaves.imp_right fun hmem => ?_
    exact (mem_goOn_calls hmem).resolve_right (Ne.symm hcovers)
  · simp only [checked, or_eq_true, List.any_eq_true] at hchecked
    rcases hchecked with hhanded | ⟨p, hp, hpast⟩
    · exact h.cleared (by simp only [checked, or_eq_true]; exact .inl hhanded)
    · rcases mem_goOn_calls hp with hold | rfl
      · exact h.cleared (by
          simp only [checked, or_eq_true, List.any_eq_true]; exact .inr ⟨p, hold, hpast⟩)
      · exact hcleared hpast

/-- A call past the holds has found them cleared. -/
theorem JobState.Ok.cleared_of_call
    (hphase : j.calls[k]? = some phase) (hpast : phase.pastHoldCheck) : Cleared j.holds :=
  h.cleared (by
    simp only [JobState.checked, or_eq_true, List.any_eq_true]
    exact .inr ⟨phase, mem_of_getElem? hphase, hpast⟩)

theorem JobState.Ok.consume (hphase : j.calls[k]? = some .consume) :
    (j.consume k).Ok run directories job := by
  have hcleared := h.cleared_of_call hphase rfl
  refine h.of_eq rfl (fun hleaves => ?_) fun _ => hcleared
  simp only [leaves, JobState.consume, Bool.false_or, or_eq_true, contains_iff_mem] at hleaves ⊢
  rcases hleaves with hhanded | hmem
  · exact .inl (.inr hhanded)
  · rcases mem_goOn_calls hmem with hold | hnew
    · exact .inr hold
    · cases hpending : j.pendingContext with
      | true => exact .inl (.inl rfl)
      | false =>
        rw [hpending] at hnew
        cases hnew

theorem JobState.Ok.handOver (hphase : j.calls[k]? = some .dispatching) :
    (j.handOver k).Ok run directories job := by
  have hcleared := h.cleared_of_call hphase rfl
  refine h.of_eq rfl (fun _ => ?_) fun _ => hcleared
  simp only [leaves, or_eq_true, contains_iff_mem]
  exact .inr (mem_of_getElem? hphase)

theorem JobState.Ok.skip : (j.skip k).Ok run directories job := by
  have hended : (j.goOn k .ended).Ok run directories job :=
    h.goOn Bool.noConfusion ReadyPhase.noConfusion
  refine hended.of_eq rfl (fun hleaves => ?_) fun hchecked => hended.cleared hchecked
  simp only [leaves, JobState.skip, Bool.false_or, or_eq_true] at hleaves ⊢
  exact hleaves.imp_left Or.inr

/-- A hold is added that asks for no answer. -/
theorem JobState.Ok.rehold {data : CreateHeldRunData}
    (hqueue : data.queueType = .context) : (j.rehold orgId data).Ok run directories job := by
  have hle : HoldsLe j.holds (j.rehold orgId data).holds := fun row hrow =>
    ⟨row, mem_append_left _ hrow, .refl row⟩
  refine ⟨fun row hrow => ?_, fun hleaves => (h.covers hleaves).mono hle,
    fun hchecked row hrow hasks => ?_⟩
  · rcases mem_append.1 hrow with hold | hnew
    · exact h.rows row hold
    · obtain rfl := mem_singleton.1 hnew
      exact (fresh_createHeldRun orgId data).ok
  · rcases mem_append.1 hrow with hold | hnew
    · exact h.cleared hchecked row hold hasks
    · obtain rfl := mem_singleton.1 hnew
      have hcontext : (createHeldRun orgId data).queueType = .context := hqueue
      rw [HoldRow.asks, hcontext] at hasks
      cases hasks

end

/-! ### The pass -/

/-- What the pass leaves of a job holds, where the gate that decides leaves in all clauses. -/
theorem ok_afterPass {occupied : ℕ} {waveHeld : Bool} {now : ℤ}
    (hcovers : (run.rejects isMatch job || run.passCovers job occupied)) :
    (JobState.afterPass run.orgId (run.evaluateJob isMatch now job occupied)
      job.isRootJob waveHeld).Ok run directories job := by
  have hempty : ∀ j : JobState, j.holds = [] → j.leaves = false → j.Ok run directories job := by
    intro j hholds hleaves
    refine ⟨fun row hrow => ?_, fun h => absurd (h.symm.trans hleaves) Bool.noConfusion,
      fun _ row hrow _ => ?_⟩
    · rw [hholds] at hrow
      cases hrow
    · rw [hholds] at hrow
      cases hrow
  rw [JobState.afterPass]
  split
  · exact hempty _ rfl rfl
  next hnot =>
    have hrejects : run.rejects isMatch job = false := by
      rw [eq_false_iff]
      exact fun hrejects => hnot (GatedRun.evaluateJob_rejected hrejects)
    rw [hrejects, Bool.false_or] at hcovers
    have houtcome : run.PassOutcome job occupied (run.evaluateJob isMatch now job occupied) :=
      GatedRun.passOutcome hrejects
    cases houtcome with
    | free hheld hgate hcarried =>
      have hnone : run.neededClauses job = [] := by
        rw [GatedRun.passCovers, hgate, Bool.and_false, Bool.false_or, hcarried,
          List.all_eq_true] at hcovers
        refine eq_nil_iff_forall_not_mem.2 fun c hc => ?_
        cases hcovers c hc
      have hasks : Covers run job [] := by
        refine ⟨fun c hc => ?_, fun htrust => ?_⟩
        · rw [hnone] at hc
          cases hc
        · exact absurd (htrust.symm.trans (GatedRun.trustHolds_of_gateHolds_eq_false hgate).1)
            Bool.noConfusion
      have hfree : ∀ j : JobState, j.holds = [] → j.Ok run directories job := by
        intro j hholds
        refine ⟨fun row hrow => ?_, fun _ => hholds ▸ hasks, fun _ row hrow _ => ?_⟩
        · rw [hholds] at hrow
          cases hrow
        · rw [hholds] at hrow
          cases hrow
      rw [if_neg (eq_false_iff.1 hheld)]
      split
      · exact hfree _ rfl
      · exact hfree _ rfl
    | notStored hheld hrows =>
      rw [if_pos hheld, hrows]
      exact hempty _ rfl rfl
    | stored hheld hstore hasks =>
      rw [if_pos hheld]
      rw [GatedRun.passCovers, hstore, Bool.not_true, Bool.false_and, Bool.false_or,
        List.all_eq_true] at hcovers
      have hneeded : Covers run job
        (persistJobHold run.orgId (run.evaluateJob isMatch now job occupied)) :=
        ⟨fun c hc => hasks.carried c (contains_iff_mem.1 (hcovers c hc)), hasks.security⟩
      exact ⟨fun row hrow => (fresh_of_mem_persistJobHold hrow).ok, fun _ => hneeded, Bool.noConfusion⟩

/-! ## Runs -/

/-- What holds of a run, of whatever gates: where a job goes on past its upstreams, the workflow is
approved. -/
structure GateInv (run : GatedRun) (s : GateState) : Prop where
  idle : ∀ i, (s.jobs i).passed = false → s.jobs i = {}
  known : ∀ i, (s.jobs i).passed = true → ∃ job, run.jobs[i]? = some job
  jobs : ∀ i job, run.jobs[i]? = some job → (s.jobs i).Ok run s.directories job
  follows : ∀ i job, run.jobs[i]? = some job → job.isRootJob = false → (s.jobs i).follows = true →
    ∀ c ∈ run.approval.elim [] (·.clauses), ∃ u, ApprovedOn s u c

variable {s t : GateState} {i : ℕ}

theorem JobState.ok_idle : JobState.Ok run directories job {} :=
  ⟨nofun, Bool.noConfusion, Bool.noConfusion⟩

theorem gateInv_init (h : ∀ i, s.jobs i = {}) : GateInv run s := by
  refine ⟨fun i _ => h i, fun i hpassed => ?_, fun i job _ => ?_, fun i job _ _ hfollows => ?_⟩
  · rw [h i] at hpassed
    cases hpassed
  · rw [h i]
    exact JobState.ok_idle
  · rw [h i] at hfollows
    cases hfollows

/-- Where a job is handed over, its gates have been passed. -/
theorem GateInv.gatesPassed (h : GateInv run s) (hjob : run.jobs[i]? = some job)
    (hhanded : (s.jobs i).handed) : GatesPassed run s i job := by
  have hok := h.jobs i job hjob
  have hcovers : Covers run job (s.jobs i).holds := hok.covers (by
    rw [JobState.leaves, hhanded, Bool.or_true, Bool.true_or])
  have hcleared : Cleared (s.jobs i).holds :=
    hok.cleared (by rw [JobState.checked, hhanded, Bool.true_or])
  have hneeded : ∀ c ∈ run.neededClauses job, ApprovedOn s i c := by
    intro c hc
    obtain ⟨row, hrow, requirement, hrequirement, hmem⟩ := hcovers.carried c hc
    have happroved := hcleared row hrow (by rw [HoldRow.asks, hrequirement]; rfl)
    obtain ⟨d, hd, lookup, hlookup, hmeets⟩ :=
      (hok.rows row hrow).approved happroved requirement hrequirement c hmem
    exact ⟨row, hrow, d, hd, lookup, hlookup, hmeets⟩
  have hroot : job.isRootJob → ∀ c ∈ run.approval.elim [] (·.clauses), ApprovedOn s i c := by
    intro hroot c hc
    refine hneeded c ?_
    rw [GatedRun.neededClauses, GatedRun.rootApproval, if_pos hroot]
    exact mem_append_right _ hc
  refine ⟨fun reviewer hreviewer => hneeded _ ?_, fun c hc => hneeded _ ?_, hroot, fun c hc => ?_,
    fun htrust => ?_⟩
  · rw [GatedRun.neededClauses, append_assoc]
    exact mem_append_left _ (List.mem_map_of_mem hreviewer)
  · rw [GatedRun.neededClauses]
    exact mem_append_left _ (mem_append_right _ hc)
  · cases hisRoot : job.isRootJob with
    | true => exact ⟨i, hroot hisRoot c hc⟩
    | false => exact h.follows i job hjob hisRoot (by rw [JobState.follows, hhanded, Bool.true_or]) c hc
  · obtain ⟨row, hrow, hsecurity⟩ := hcovers.security htrust
    refine ⟨row, hrow, hsecurity, hcleared row hrow ?_⟩
    rw [HoldRow.asks, hsecurity]
    exact Bool.or_true _

/-- A later state has the holds, and the teams as they were. -/
structure StateLe (s t : GateState) : Prop where
  holds : ∀ i, HoldsLe (s.jobs i).holds (t.jobs i).holds
  directories : s.directories ⊆ t.directories

theorem ApprovedOn.mono (h : ApprovedOn s i c) (hle : StateLe s t) : ApprovedOn t i c := by
  obtain ⟨row, hrow, d, hd, lookup, hlookup, hmeets⟩ := h
  obtain ⟨row', hrow', hrowLe⟩ := hle.holds i row hrow
  exact ⟨row', hrow', d, hrowLe.decisions d hd, lookup, hle.directories hlookup, hmeets⟩

theorem stateLe_setJob (hle : HoldsLe (s.jobs i).holds j.holds) : StateLe s (s.setJob i j) := by
  refine ⟨fun k => ?_, List.Subset.refl _⟩
  by_cases hk : k = i
  · subst hk
    rw [GateState.setJob_jobs_self]
    exact hle
  · rw [GateState.setJob_jobs_of_ne hk]
    exact .refl _

/-- A job of a run changes. -/
theorem GateInv.setJob (h : GateInv run s) (hjob : run.jobs[i]? = some job) (hpassed : j.passed)
    (hle : HoldsLe (s.jobs i).holds j.holds) (hok : j.Ok run s.directories job)
    (hfollows : job.isRootJob = false → j.follows →
      ∀ c ∈ run.approval.elim [] (·.clauses), ∃ u, ApprovedOn s u c) : GateInv run (s.setJob i j) := by
  have hstate := stateLe_setJob hle
  refine ⟨fun k hk => ?_, fun k hk => ?_, fun k job' hjob' => ?_, fun k job' hjob' hroot hk c hc => ?_⟩
  · by_cases hki : k = i
    · subst hki
      rw [GateState.setJob_jobs_self, hpassed] at hk
      cases hk
    · rw [GateState.setJob_jobs_of_ne hki] at hk ⊢
      exact h.idle k hk
  · by_cases hki : k = i
    · exact ⟨job, hki ▸ hjob⟩
    · rw [GateState.setJob_jobs_of_ne hki] at hk
      exact h.known k hk
  · by_cases hki : k = i
    · subst hki
      obtain rfl := some.inj (hjob.symm.trans hjob')
      rw [GateState.setJob_jobs_self]
      exact hok
    · rw [GateState.setJob_jobs_of_ne hki]
      exact h.jobs k job' hjob'
  · have hbefore : ∃ u, ApprovedOn s u c := by
      by_cases hki : k = i
      · subst hki
        obtain rfl := some.inj (hjob.symm.trans hjob')
        rw [GateState.setJob_jobs_self] at hk
        exact hfollows hroot hk c hc
      · rw [GateState.setJob_jobs_of_ne hki] at hk
        exact h.follows k job' hjob' hroot hk c hc
    obtain ⟨u, hu⟩ := hbefore
    exact ⟨u, hu.mono hstate⟩

/-! ### Each action -/

/-- A job that the pass has been over changes, and goes on past its upstreams no more than before. -/
theorem GateInv.update (h : GateInv run s) (hpassed : (s.jobs i).passed)
    (hsame : j.passed = (s.jobs i).passed)
    (hle : HoldsLe (s.jobs i).holds j.holds) (hfollows : j.follows → (s.jobs i).follows)
    (hok : ∀ job, (s.jobs i).Ok run s.directories job → j.Ok run s.directories job) :
    GateInv run (s.setJob i j) := by
  obtain ⟨job, hjob⟩ := h.known i hpassed
  exact h.setJob hjob (hsame.trans hpassed) hle (hok job (h.jobs i job hjob)) fun hroot hj =>
    h.follows i job hjob hroot (hfollows hj)

theorem GateInv.answer (h : GateInv run s) (hf : Answers s.directories f)
    (hstep : ((s.jobs i).onHold k f).map (s.setJob i) = some t) : GateInv run t := by
  obtain ⟨j, hj, rfl⟩ := map_eq_some_iff.1 hstep
  have hanswered := answered_onHold hf hj
  have hpassed : (s.jobs i).passed := by
    by_contra hnot
    rw [h.idle i (eq_false_iff.2 hnot)] at hj
    cases hj
  refine h.update hpassed ?_ hanswered.le ?_ fun job hok => hok.answered hanswered
  · rw [hanswered.same]
  · rw [hanswered.same]
    exact fun hfollows => hfollows

/-- A step of a call that is past its upstreams, or not past them after the step either. -/
theorem follows_goOn {phase phase' : ReadyPhase} (hphase : j.calls[k]? = some phase)
    (hpast : phase'.pastNeeds → phase.pastNeeds) (h : (j.goOn k phase').follows) :
    j.follows := by
  simp only [JobState.follows, or_eq_true, List.any_eq_true] at h ⊢
  rcases h with hhanded | ⟨p, hp, hpastp⟩
  · exact .inl hhanded
  · rcases mem_goOn_calls hp with hold | rfl
    · exact .inr ⟨p, hold, hpastp⟩
    · exact .inr ⟨phase, mem_of_getElem? hphase, hpast hpastp⟩

theorem follows_of_call (hphase : j.calls[k]? = some phase) (hpast : phase.pastNeeds) : j.follows := by
  simp only [JobState.follows, or_eq_true, List.any_eq_true]
  exact .inr ⟨phase, mem_of_getElem? hphase, hpast⟩

/-- A job with a call has been passed over. -/
theorem GateInv.passed_of_call (h : GateInv run s)
    (hphase : (s.jobs i).calls[k]? = some phase) : (s.jobs i).passed := by
  by_contra hnot
  rw [h.idle i (eq_false_iff.2 hnot)] at hphase
  cases hphase

theorem cleared_of_holdCheck (hok : j.Ok run directories job) (hpending : j.hasPendingHold = false)
    (hrefused : (j.holds.all fun row => !row.refused)) : Cleared j.holds := by
  rw [JobState.hasPendingHold, List.any_eq_false] at hpending
  rw [List.all_eq_true] at hrefused
  intro row hrow hasks
  refine (hok.rows row hrow).approved_of_asks hasks
    (fun hstatus => hpending row hrow (decide_eq_true hstatus)) ?_
  rw [← not_eq_true']
  exact hrefused row hrow

/-- The next step of a call of `dispatchReadyJob`. -/
theorem GateInv.readyStep {k occupied : ℕ} {verdict : NeedsVerdict} {now : ℤ}
    (h : GateInv run s) (hjob : run.jobs[i]? = some job) (hphase : (s.jobs i).calls[k]? = some phase)
    (hcareful : s.careful isMatch run (.callStep i k verdict occupied now))
    (hstep : readyStep run s i k job verdict occupied now phase = some t) : GateInv run t := by
  have hok := h.jobs i job hjob
  have hpassed := h.passed_of_call hphase
  rw [GateState.careful, hphase] at hcareful
  have hgoOn : ∀ phase' : ReadyPhase, (phase'.pastNeeds → phase.pastNeeds) →
      (phase'.pastHoldCheck → Cleared (s.jobs i).holds) → phase' ≠ .dispatching →
      GateInv run (s.setJob i ((s.jobs i).goOn k phase')) := fun phase' hpast hcleared hcovers =>
    h.update hpassed rfl (.refl _) (follows_goOn hphase hpast) fun job hok => hok.goOn hcleared hcovers
  have hended : GateInv run (s.setJob i ((s.jobs i).goOn k .ended)) :=
    hgoOn .ended Bool.noConfusion Bool.noConfusion ReadyPhase.noConfusion
  cases phase with
  | holdCheck =>
    rw [← some.inj hstep]
    split
    · exact hended
    next hpending =>
      exact hgoOn .needs Bool.noConfusion
        (fun _ => cleared_of_holdCheck hok (eq_false_iff.2 hpending) hcareful) ReadyPhase.noConfusion
  | needs =>
    have hcleared := hok.cleared_of_call hphase rfl
    cases verdict with
    | proceed =>
      rw [Contexts.readyStep] at hstep
      split at hstep
      · rw [← some.inj hstep]
        refine h.setJob hjob hpassed (.refl _) (hok.goOn (fun _ => hcleared) ReadyPhase.noConfusion)
          fun hroot _ c hc => ?_
        -- An upstream has been handed over, and so the workflow is approved.
        rw [hjob, all_some, GateState.followsRoot, hroot, Bool.false_or, or_eq_true] at hcareful
        rcases hcareful with hempty | hneeds
        · rw [List.isEmpty_iff.1 hempty] at hc
          cases hc
        · obtain ⟨u, -, hhanded⟩ := List.any_eq_true.1 hneeds
          have hu : (s.jobs u).passed := by
            by_contra hnot
            rw [h.idle u (eq_false_iff.2 hnot)] at hhanded
            cases hhanded
          obtain ⟨job', hjob'⟩ := h.known u hu
          exact (h.gatesPassed hjob' hhanded).workflow c hc
      · cases hstep
    | stop =>
      rw [← some.inj hstep]
      exact hended
    | skip =>
      rw [← some.inj hstep]
      exact h.update hpassed rfl (.refl _) (follows_goOn hphase Bool.noConfusion) fun job hok => hok.skip
  | slot =>
    have hcleared := hok.cleared_of_call hphase rfl
    rw [Contexts.readyStep] at hstep
    split at hstep
    · rw [← some.inj hstep]
      refine h.update hpassed rfl (fun row hrow => ⟨row, mem_append_left _ hrow, .refl row⟩)
        (follows_goOn hphase Bool.noConfusion) fun job hok => ?_
      exact (hok.goOn Bool.noConfusion ReadyPhase.noConfusion).rehold rfl
    · rw [← some.inj hstep]
      exact hgoOn .consume (fun _ => rfl) (fun _ => hcleared) ReadyPhase.noConfusion
  | consume =>
    rw [← some.inj hstep]
    exact h.update hpassed rfl (.refl _) (fun _ => follows_of_call hphase rfl) fun job hok =>
      hok.consume hphase
  | dispatching =>
    rw [← some.inj hstep]
    exact h.update hpassed rfl (.refl _) (fun _ => follows_of_call hphase rfl) fun job hok =>
      hok.handOver hphase
  | ended => cases hstep

theorem passed_afterPass {data : JobEnvData} {root waveHeld : Bool} :
    (JobState.afterPass orgId data root waveHeld).passed := by
  rw [JobState.afterPass]
  split
  · rfl
  · split
    · rfl
    · split <;> rfl

/-- The pass hands over roots only. -/
theorem follows_afterPass {data : JobEnvData} {waveHeld : Bool} :
    (JobState.afterPass orgId data false waveHeld).follows = false := by
  rw [JobState.afterPass]
  split
  · rfl
  · split <;> rfl

/-- What one step keeps. -/
theorem GateInv.step {a : GateStep} (h : GateInv run s)
    (hcareful : s.careful isMatch run a) (hstep : gateStep isMatch run s a = some t) :
    GateInv run t := by
  cases a with
  | pass i occupied waveHeld now =>
    rw [gateStep] at hstep
    split at hstep
    · cases hstep
    next hnot =>
      obtain ⟨job, hjob, rfl⟩ := map_eq_some_iff.1 hstep
      rw [GateState.careful, hjob, all_some] at hcareful
      refine h.setJob hjob passed_afterPass ?_ (ok_afterPass hcareful) fun hroot hfollows => ?_
      · rw [h.idle i (eq_false_iff.2 hnot)]
        exact nofun
      · rw [hroot, follows_afterPass] at hfollows
        cases hfollows
  | decide i k args listed read => exact h.answer (answers_onDecision args listed read) hstep
  | setDirectory directory =>
    rw [← some.inj hstep]
    have hle : StateLe s { s with directories := directory :: s.directories } :=
      ⟨fun i => .refl _, subset_cons_self _ _⟩
    refine ⟨h.idle, h.known, fun i job hjob => (h.jobs i job hjob).mono (subset_cons_self _ _),
      fun i job hjob hroot hfollows c hc => ?_⟩
    obtain ⟨u, hu⟩ := h.follows i job hjob hroot hfollows c hc
    exact ⟨u, hu.mono hle⟩
  | approveSecurity i k => exact h.answer answers_approveByQueueType hstep
  | reject i k reason => exact h.answer (answers_flip reason noConfusion noConfusion) hstep
  | releaseWait i k => exact h.answer answers_releaseDueWait hstep
  | sweep i k occupied => exact h.answer (answers_releaseQueued _ occupied) hstep
  | expire i k => exact h.answer (answers_flip none noConfusion noConfusion) hstep
  | ready i =>
    rw [gateStep] at hstep
    split at hstep
    next hpassed =>
      rw [← some.inj hstep]
      refine h.update hpassed rfl (.refl _) (fun hfollows => ?_) fun job hok =>
        hok.of_eq rfl (fun hleaves => ?_)
        fun hchecked => hok.cleared ?_
      · simpa [JobState.follows, ReadyPhase.pastNeeds] using hfollows
      · simpa [JobState.leaves] using hleaves
      · simpa [JobState.checked, ReadyPhase.pastHoldCheck] using hchecked
    next => cases hstep
  | callStep i k verdict occupied now =>
    obtain ⟨job, hjob, hrest⟩ := bind_eq_some_iff.1 hstep
    obtain ⟨phase, hphase, hready⟩ := bind_eq_some_iff.1 hrest
    exact h.readyStep hjob hphase hcareful hready
  | crash i k =>
    rw [gateStep] at hstep
    split at hstep
    next hlt =>
      rw [← some.inj hstep]
      have hphase : (s.jobs i).calls[k]? = some (s.jobs i).calls[k] := getElem?_eq_getElem hlt
      exact h.update (h.passed_of_call hphase) rfl (.refl _) (follows_goOn hphase Bool.noConfusion)
        fun job hok =>
        hok.goOn Bool.noConfusion ReadyPhase.noConfusion
    next => cases hstep
  | finish i =>
    rw [gateStep] at hstep
    split at hstep
    next hpassed =>
      rw [← some.inj hstep]
      exact h.update hpassed rfl (.refl _) (fun hfollows => hfollows) fun job hok =>
        hok.of_eq rfl (fun hleaves => hleaves) fun hchecked => hok.cleared hchecked
    next => cases hstep

/-- In every run in which no gate gets lost, a job that has been handed to the dispatcher has passed
its gates. -/
theorem gates_passed (isMatch : JsString → JsString → Bool) (run : GatedRun) {s : GateState}
    (h : (gateSystem isMatch run).Reachable (fun s a => s.careful isMatch run a) s) {i : ℕ}
    {job : GatedJob}
    (hjob : run.jobs[i]? = some job) (hhanded : (s.jobs i).handed) : GatesPassed run s i job :=
  (h.invariant (fun _ hinit => gateInv_init hinit) fun _ _ _ hs hcareful hstep =>
    hs.step hcareful hstep).gatesPassed hjob hhanded

/-! ### A reviewer and a slot -/

/-- A context that one job at a time may use, with the approval of Alice. -/
def production : Context where
  id := js "ctx-1"
  name := js "production"
  branchRestrictions := []
  triggerTypeFilters := []
  repoPatterns := []
  concurrencyLimit := some 1
  concurrencyStrategy := .queue
  requiredReviewers := some [js "alice"]
  waitTimerSeconds := none
  holdExpirySeconds := 3600
  minimumTrust := false
  enabled := true

def deploy : GatedJob where
  name := js "deploy"
  contexts := [⟨js "production", some production⟩]
  approval := none
  needs := []
  generated := false

def deployRun : GatedRun where
  orgId := js "acme"
  runId := js "run-1"
  jobs := [deploy]
  approval := none
  trustTier := some .trusted
  branch := js "main"
  triggerType := js "push"
  repository := js "acme/app"
  internallyTriggered := false
  heldRunStore := true
  approvalExpirySeconds := 86400
  concurrency := ⟨js "ctx-1", some 1, .queue, 3600⟩

def noMatch (_ _ : JsString) : Bool := false

def aliceApproves : DecisionArgs where
  orgId := js "acme"
  actorSub := js "alice"
  decision := .approve

/-- A call of `dispatchReadyJob`, from its begin to its end. -/
def readyCall : List GateStep := .ready 0 :: List.replicate 5 (.callStep 0 0 .proceed 0 0)

def before : GateState where
  directories := [[]]

/-- A slot is free, so that the reviewer is asked, and approves. -/
theorem gates_passed_deploy : ∃ s, (s.jobs 0).handed ∧ GatesPassed deployRun s 0 deploy := by
  have hrun : ((gateSystem noMatch deployRun).run (GateState.careful noMatch deployRun) before
      (.pass 0 0 false 0 :: .decide 0 0 aliceApproves 0 0 :: readyCall)).any
        (fun s => (s.jobs 0).handed) := by decide
  obtain ⟨s, hpath, hhanded⟩ := System.exists_path_of_run (fun _ _ h => h) _ hrun
  exact ⟨s, hhanded, gates_passed noMatch deployRun ⟨before, fun _ => rfl, hpath⟩ rfl hhanded⟩

/-- No slot is free, so that the job is queued, and handed over when one is: nobody has approved
anything. -/
theorem exists_gate_swallowed : ∃ s, (gateSystem noMatch deployRun).Reachable System.anyStep s ∧
    (s.jobs 0).handed ∧ js "alice" ∈ reviewersOf deploy.envs ∧ ¬ ApprovedOn s 0 (.user (js "alice")) ∧
    ¬ GatesPassed deployRun s 0 deploy := by
  have hrun : ((gateSystem noMatch deployRun).run (fun _ _ => true) before
      (.pass 0 1 false 0 :: .sweep 0 0 0 :: readyCall)).any
        (fun s => (s.jobs 0).handed && (s.jobs 0).holds.all fun row =>
          row.db.listDecisions.isEmpty) := by
    decide
  obtain ⟨s, hpath, hs⟩ := System.exists_path_of_run System.anyStep_of_true _ hrun
  obtain ⟨hhanded, hnone⟩ := and_eq_true_iff.1 hs
  have hmem : js "alice" ∈ reviewersOf deploy.envs := by decide
  have hnot : ¬ ApprovedOn s 0 (.user (js "alice")) := by
    rintro ⟨row, hrow, d, hd, -⟩
    rw [List.isEmpty_iff.1 (List.all_eq_true.1 hnone row hrow)] at hd
    cases hd
  exact ⟨s, ⟨before, fun _ => rfl, hpath⟩, hhanded, hmem, hnot, fun h => hnot (h.reviewers _ hmem)⟩

end Kici.Contexts
