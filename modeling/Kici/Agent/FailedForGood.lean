import Kici.Agent.Failures
import Kici.Queue.Terminal

/-!
# Jobs that are failed while an agent has them

The statement that fails a job for good looks at the row only where the job recovers; else it fails
the row, whatever has become of it since the decision (`markFailed`). So a job may be failed that an
agent has claimed meanwhile (`exists_failed_claimed`), and one that an agent has claimed back may be
told to be failed by a sweep that had selected it.

If no agent claims a job between a decision and its statement (`LeavesDecided`), then none has
claimed it since the decision when it is failed, nor when it is told (`not_claimed_of_failed`): what
is over stays so.
-/

namespace Kici

open List Option Db JobQueue Table Update DispatchRow

variable {p p' : DispatchRow → Prop}

/-- The row of a job that is over, or recovers. -/
def DispatchRow.Over (r : DispatchRow) : Prop := r.status = .recovering ∨ r.Terminal

/-- The update ends rows that recover, or are over, or leaves their status. -/
def Update.Settles (u : DispatchUpdate) : Prop :=
  ∀ r : DispatchRow, r.Over → u.guard r = true → (u.set r).Terminal ∨ (u.set r).status = r.status

/-- The jobs that a call has decided to fail, and not failed yet. -/
def FailureCall.decides : FailureCall → List String
  | .releaseUnopenableDispatch jobId _ | .markFailed jobId _ | .cancelQueuedJob jobId _ => [jobId]
  | .sweepExpiredRecoveries rows _ => rows.map DispatchRow.id
  | _ => []

/-- A job is left alone while a call has decided to fail it. -/
structure LeavesDecided (s : FailureState) (a : FailureAction) : Prop where
  claims : ∀ jobId ∈ s.claims a, ∀ call ∈ s.calls, jobId ∉ call.decides
  /-- The row of a job that was claimed has not moved on when its agent is written to it. -/
  markDispatched : ∀ k q now agentId jobId claimedAt, a = .next k (.run q now) →
    s.calls[k]? = some (.markDispatched agentId jobId claimedAt) →
      ∀ r, s.db.row? jobId = some r → r.status = .dispatched
  /-- No agent has claimed the job since whose secrets are found not to open. -/
  unopenable : ∀ k jobId claimedAt, a = .next k .secretsUnavailable →
    s.calls[k]? = some (.deliver jobId claimedAt) → ∀ t ∈ s.claimedAt jobId, t ≤ claimedAt

variable {r : DispatchRow} {u : DispatchUpdate} {q : JobQueue} {db : Db} {now : ℕ} {jobId runId : String}
  {rows : List DispatchRow}

/-! ## Updates -/

theorem Update.settles_of_guard (h : ∀ r : DispatchRow, u.guard r → r.status = .pending ∨
    r.status = .dispatched) : u.Settles := by
  intro r hover hguard
  rcases h r hguard with hr | hr <;> rcases hover with hover | hover | hover | hover <;>
    rw [hr] at hover <;> cases hover

theorem Update.settles_of_terminal (h : ∀ r : DispatchRow, (u.set r).Terminal) : u.Settles :=
  fun r _ _ => .inl (h r)

namespace JobQueue

theorem settles_claimRowById {agentId : Option String} : (q.claimRowById now jobId agentId).Settles :=
  settles_of_guard fun _ hguard => .inl (of_decide_eq_true hguard).2

theorem settles_claimUnopenableById : (q.claimUnopenableById db now jobId).Settles :=
  settles_of_guard fun _ hguard => .inl (of_decide_eq_true hguard).2.2.1

theorem settles_expireDispatchOfStoppedRun : (expireDispatchOfStoppedRun db jobId).Settles :=
  settles_of_guard fun _ hguard => .inr (of_decide_eq_true hguard).2.1

theorem settles_requeue {countAttempt : Bool} {provisioningError : Option String} :
    (requeue db jobId countAttempt provisioningError).Settles :=
  settles_of_guard fun _ hguard => .inr (of_decide_eq_true hguard).2.1

theorem settles_requeueIfAwaitingAck {expectedAgentId : Option String} :
    (requeueIfAwaitingAck db jobId expectedAgentId).Settles :=
  settles_of_guard fun _ hguard => .inr (of_decide_eq_true hguard).2.1

theorem settles_markFailed : (markFailed jobId).Settles :=
  settles_of_terminal fun _ => .inr (.inl rfl)

theorem settles_markFailedIfRecovering : (markFailedIfRecovering jobId).Settles :=
  settles_of_terminal fun _ => .inr (.inl rfl)

theorem settles_sweepExpiredRecoveriesUpdate : (sweepExpiredRecoveriesUpdate rows).Settles :=
  settles_of_terminal fun _ => .inr (.inl rfl)

end JobQueue

open JobQueue in
/-- What others write ends rows at most. -/
theorem OtherWrite.settles (w : OtherWrite) : (w.update q db).Settles := by
  cases w with
  | claimUnroutable | markExpired | cancelByRunId => exact settles_of_terminal fun _ => .inr (.inr rfl)
  | markCompleted jobId => exact settles_of_terminal fun _ => .inl rfl
  | failByRunId runId => exact settles_of_terminal fun _ => .inr (.inl rfl)
  | expireDispatchOfStoppedRun jobId => exact settles_expireDispatchOfStoppedRun
  | markRecovering jobId deadline agentId =>
    exact settles_of_guard fun _ hguard => .inr (of_decide_eq_true hguard).2.1
  | setAckDeadline jobId deadline agentId =>
    exact settles_of_guard fun _ hguard => .inr (of_decide_eq_true hguard).2
  | clearAckDeadline jobId => exact fun r _ _ => .inr rfl

namespace Db

/-- There is a row of the job, and it is as it should be. -/
def HasRow (db : Db) (jobId : String) (p : DispatchRow → Prop) : Prop :=
  ∃ r, db.row? jobId = some r ∧ p r

/-- Rows that are over stay so, and rows that recover stay or end, but for those of jobs that are
claimed. -/
def Proceeds (claimed : Option String) (db db' : Db) : Prop :=
  ∀ jobId r, db.row? jobId = some r → ∃ r', db'.row? jobId = some r' ∧ (r.Terminal → r'.Terminal) ∧
    (r.Over → jobId ∉ claimed → r'.Over)

variable {db' : Db} {claimed : Option String}

theorem Proceeds.refl (db : Db) : Proceeds claimed db db :=
  fun _ r hr => ⟨r, hr, id, fun hover _ => hover⟩

theorem HasRow.mono (h : db.HasRow jobId p) (hproceeds : Proceeds claimed db db')
    (hp : ∀ r r' : DispatchRow, (r.Terminal → r'.Terminal) → (r.Over → jobId ∉ claimed → r'.Over) →
      p r → p' r') :
    db'.HasRow jobId p' := by
  obtain ⟨r, hr, hpr⟩ := h
  obtain ⟨r', hr', hterminal, hover⟩ := hproceeds jobId r hr
  exact ⟨r', hr', hp r r' hterminal hover hpr⟩

theorem HasRow.update (h : db.HasRow jobId p)
    (hp : ∀ r : DispatchRow, r.id = jobId → p r → p' (u.apply r)) : (db.update u).HasRow jobId p' := by
  obtain ⟨r, hr, hpr⟩ := h
  exact ⟨u.apply r, row?_update hr, hp r (lookup_eq_some.1 hr).2 hpr⟩

theorem row?_id (h : db.row? jobId = some r) : r.id = jobId := (lookup_eq_some.1 h).2

/-- An update that ends rows at most, but for a row that is claimed. -/
theorem proceeds_update (hu : ∀ r, db.row? r.id = some r → r.Over → r.Terminal ∨ r.id ∉ claimed →
    u.guard r → (u.set r).Terminal ∨ (u.set r).status = r.status) :
    Proceeds claimed db (db.update u) := by
  intro jobId r hr
  obtain rfl := row?_id hr
  refine ⟨u.apply r, row?_update hr, fun hterminal => ?_, fun hover hclaimed => ?_⟩
  · by_cases hguard : u.guard r
    · rw [apply_of_guard hguard]
      rcases hu r hr (.inr hterminal) (.inl hterminal) hguard with h | h
      · exact h
      · rw [Terminal, h]
        exact hterminal
    · rw [apply_of_not_guard (Bool.eq_false_iff.2 hguard)]
      exact hterminal
  · by_cases hguard : u.guard r
    · rw [apply_of_guard hguard]
      rcases hu r hr hover (.inr hclaimed) hguard with h | h
      · exact .inr h
      · rw [Over, Terminal, h]
        exact hover
    · rw [apply_of_not_guard (Bool.eq_false_iff.2 hguard)]
      exact hover

theorem proceeds_of_settles (hu : u.Settles) : Proceeds claimed db (db.update u) :=
  proceeds_update fun r _ hover _ hguard => hu r hover hguard

theorem proceeds_insert {r' : DispatchRow} : Proceeds claimed db (db.insert r') :=
  fun _ r hr => ⟨r, row?_insert hr r', id, fun hover _ => hover⟩

end Db

/-! ## Calls -/

/-- No agent has claimed the job since the step. -/
def NotClaimedSince (claimedAt : String → Option ℕ) (jobId : String) (decidedAt : ℕ) : Prop :=
  ∀ t ∈ claimedAt jobId, t ≤ decidedAt

/-- What a call rests on: there is a row of its job, and no agent has claimed the job since the
decision. -/
def FailureCall.Sound (db : Db) (claimedAt : String → Option ℕ) : FailureCall → Prop
  | .markDispatched _ jobId _ | .deliver jobId _ => db.HasRow jobId fun _ => True
  | .releaseUnopenableDispatch jobId decidedAt | .markFailed jobId decidedAt =>
    db.HasRow jobId (fun _ => True) ∧ NotClaimedSince claimedAt jobId decidedAt
  | .cancelQueuedJob jobId decidedAt => NotClaimedSince claimedAt jobId decidedAt
  | .sweepExpiredRecoveries rows decidedAt => ∀ jobId ∈ rows.map DispatchRow.id,
    db.HasRow jobId Over ∧ NotClaimedSince claimedAt jobId decidedAt
  | .onJobFailedPermanently jobIds decidedAt => ∀ jobId ∈ jobIds,
    db.HasRow jobId Terminal ∧ NotClaimedSince claimedAt jobId decidedAt
  | _ => True

/-- Who has claimed which job last, after a step in which one may be claimed. -/
def claimedAfter (claimed : Option String) (clock : ℕ) (claimedAt : String → Option ℕ)
    (jobId : String) : Option ℕ :=
  if claimed = some jobId then some clock else claimedAt jobId

section
variable {db' : Db} {claimed : Option String} {clock decidedAt : ℕ} {claimedAt : String → Option ℕ}

theorem NotClaimedSince.after (h : NotClaimedSince claimedAt jobId decidedAt)
    (hclaimed : jobId ∉ claimed) :
    NotClaimedSince (claimedAfter claimed clock claimedAt) jobId decidedAt := by
  have hne : claimed ≠ some jobId := hclaimed
  intro t ht
  rw [claimedAfter, if_neg hne] at ht
  exact h t ht

/-- A call rests on the same after a step in which its job is left alone. -/
theorem FailureCall.Sound.after {call : FailureCall} (h : call.Sound db claimedAt)
    (hproceeds : Proceeds claimed db db') (hleaves : ∀ jobId ∈ claimed, jobId ∉ call.decides)
    (hterminal : ∀ jobId ∈ claimed, ¬db.HasRow jobId Terminal) :
    call.Sound db' (claimedAfter claimed clock claimedAt) := by
  cases call with
  | markDispatched | deliver => exact h.mono hproceeds fun _ _ _ _ _ => trivial
  | releaseUnopenableDispatch jobId | markFailed jobId =>
    exact ⟨h.1.mono hproceeds fun _ _ _ _ _ => trivial,
      h.2.after fun hclaimed => hleaves jobId hclaimed (mem_singleton_self _)⟩
  | cancelQueuedJob jobId =>
    exact NotClaimedSince.after h fun hclaimed => hleaves jobId hclaimed (mem_singleton_self _)
  | sweepExpiredRecoveries rows =>
    intro jobId hmem
    have hnot : jobId ∉ claimed := fun hclaimed => hleaves jobId hclaimed hmem
    exact ⟨(h jobId hmem).1.mono hproceeds fun _ _ _ hover hr => hover hr hnot,
      (h jobId hmem).2.after hnot⟩
  | onJobFailedPermanently jobIds =>
    intro jobId hmem
    have hnot : jobId ∉ claimed := fun hclaimed => hterminal jobId hclaimed (h jobId hmem).1
    exact ⟨(h jobId hmem).1.mono hproceeds fun _ _ hstays _ hr => hstays hr, (h jobId hmem).2.after hnot⟩
  | _ => trivial

end

namespace FailureState

variable {s t : FailureState} {a : FailureAction} {call : FailureCall} {next : Option FailureCall}
  {claimed : Option String}

/-- Whatever was failed, no agent had claimed since the decision. -/
structure Sound (s : FailureState) : Prop where
  clock : ∀ jobId t, s.claimedAt jobId = some t → t < s.clock
  calls : ∀ call ∈ s.calls, call.Sound s.db s.claimedAt
  failures : ∀ f ∈ s.failures, ∀ t ∈ f.claimedAt, t ≤ f.decidedAt

/-- A decision of now is one after all claims. -/
theorem Sound.notClaimedSince (h : s.Sound) (jobId : String) :
    NotClaimedSince s.claimedAt jobId s.clock :=
  fun t ht => (h.clock jobId t ht).le

theorem exists_of_changes (h : s.changes u) : ∃ r, s.db.row? r.id = some r ∧ u.guard r := by
  rw [changes, Bool.not_eq_true', isEmpty_eq_false_iff_exists_mem] at h
  obtain ⟨r', hr'⟩ := h
  obtain ⟨r, hr, hguard, -⟩ := mem_returning.1 hr'
  exact ⟨r, lookup_of_mem hr, hguard⟩

/-- A job that is claimed is not over. -/
theorem not_terminal_of_claims (h : jobId ∈ s.claims a) : ¬s.db.HasRow jobId Terminal := by
  rintro ⟨r, hr, hterminal⟩
  cases a with
  | claim q now agentId claimed =>
    obtain ⟨hchanges, heq⟩ := ite_none_right_eq_some.1 h
    cases heq
    obtain ⟨r', hr', hguard⟩ := exists_of_changes hchanges
    have hr'id : r'.id = jobId := (of_decide_eq_true hguard).1
    rw [hr'id, hr] at hr'
    cases hr'
    rw [guarded_claimRowById r hterminal] at hguard
    cases hguard
  | insertDispatched js q now job agentId =>
    obtain ⟨hnone, heq⟩ := ite_none_right_eq_some.1 h
    cases heq
    rw [hr] at hnone
    cases hnone
  | markDispatchedIfRecovering q now agentId claimed =>
    obtain ⟨hchanges, heq⟩ := ite_none_right_eq_some.1 h
    cases heq
    obtain ⟨r', hr', hguard⟩ := exists_of_changes hchanges
    have hr'id : r'.id = jobId := (of_decide_eq_true hguard).1
    rw [hr'id, hr] at hr'
    cases hr'
    rw [guarded_markDispatchedIfRecovering r hterminal] at hguard
    cases hguard
  | _ => cases h

theorem hasRow_of_changes (h : s.changes u) (hid : ∀ r : DispatchRow, u.guard r → r.id = jobId) :
    s.db.HasRow jobId fun r => u.guard r := by
  obtain ⟨r, hr, hguard⟩ := exists_of_changes h
  exact ⟨r, hid r hguard ▸ hr, hguard⟩

theorem failures_fail {jobIds : List String} {decidedAt : ℕ} {f : Failure}
    (h : f ∈ (s.fail jobIds decidedAt).failures) :
    f ∈ s.failures ∨ f.decidedAt = decidedAt ∧ f.jobId ∈ jobIds ∧ f.claimedAt = s.claimedAt f.jobId := by
  rcases mem_append.1 h with hold | hnew
  · exact .inl hold
  · obtain ⟨jobId, hmem, rfl⟩ := mem_map.1 hnew
    exact .inr ⟨rfl, hmem, rfl⟩

/-- What the answer to a call keeps: rows that are over stay so, and what it fails, no agent has
claimed since the decision. -/
structure Answers (s t : FailureState) (next : Option FailureCall) : Prop where
  proceeds : Proceeds none s.db t.db
  calls : t.calls = s.calls
  next : ∀ x ∈ next, x.Sound t.db s.claimedAt
  failures : ∀ f ∈ t.failures, f ∈ s.failures ∨ NotClaimedSince s.claimedAt f.jobId f.decidedAt ∧
    f.claimedAt = s.claimedAt f.jobId

theorem answers_write (hu : u.Settles)
    (hnext : ∀ x ∈ next, x.Sound (s.write u).db s.claimedAt) : s.Answers (s.write u) next :=
  ⟨proceeds_of_settles hu, rfl, hnext, fun _ => .inl⟩

theorem answers_fail {jobIds : List String} {decidedAt : ℕ} (h : s.Answers t next)
    (hclaimedAt : t.claimedAt = s.claimedAt)
    (hsince : ∀ jobId ∈ jobIds, NotClaimedSince s.claimedAt jobId decidedAt) :
    s.Answers (t.fail jobIds decidedAt) next where
  proceeds := h.proceeds
  calls := h.calls
  next := h.next
  failures f hf := by
    rcases failures_fail hf with hold | ⟨rfl, hmem, hlast⟩
    · exact h.failures f hold
    · exact .inr ⟨hsince _ hmem, hlast.trans (congrFun hclaimedAt _)⟩

/-- A job that was put back too often is failed next. -/
theorem Sound.finishRequeue (h : s.Sound) (hid : ∀ r : DispatchRow, u.guard r → r.id = jobId)
    (hu : u.Settles) :
    ∀ x ∈ s.finishRequeue jobId (s.db.dispatchQueue.returning u),
    x.Sound (s.write u).db s.claimedAt := by
  intro x hx
  unfold FailureState.finishRequeue at hx
  split at hx
  · next r rest hreturning =>
    obtain ⟨-, heq⟩ := ite_none_right_eq_some.1 hx
    cases heq
    have hchanges : s.changes u := by simp [changes, hreturning]
    have hproceeds : Proceeds none s.db (s.write u).db := proceeds_of_settles hu
    refine ⟨?_, h.notClaimedSince jobId⟩
    exact (hasRow_of_changes hchanges hid).mono hproceeds fun _ _ _ _ _ => trivial
  · cases hx

/-- What a call rests on is enough for its answer. -/
theorem Sound.callNext (h : s.Sound) {k : ℕ} {answer : FailureAnswer}
    (hleaves : LeavesDecided s (.next k answer)) (hcall : s.calls[k]? = some call)
    (hnext : s.callNext call answer = some (t, next)) : s.Answers t next := by
  have hsound := h.calls call (mem_of_getElem? hcall)
  unfold FailureState.callNext at hnext
  split at hnext
  case h_1 | h_3 =>
    cases hnext
    exact ⟨.refl _, rfl, nofun, fun _ => .inl⟩
  · next agentId jobId claimedAt q now =>
    cases hnext
    have hproceeds : Proceeds none s.db (s.write (q.markDispatched now jobId agentId)).db := by
      refine proceeds_update fun r hr hover _ hguard => ?_
      have hid : r.id = jobId := of_decide_eq_true hguard
      have hdispatched := hleaves.markDispatched k q now agentId jobId claimedAt rfl hcall r (hid ▸ hr)
      rcases hover with hover | hover | hover | hover <;> rw [hdispatched] at hover <;> cases hover
    refine ⟨hproceeds, rfl, fun x hx => ?_, fun _ => .inl⟩
    cases hx
    exact hsound.mono hproceeds fun _ _ _ _ _ => trivial
  · next jobId claimedAt =>
    cases hnext
    refine ⟨.refl _, rfl, fun x hx => ?_, fun _ => .inl⟩
    cases hx
    exact ⟨hsound, hleaves.unopenable k jobId claimedAt rfl hcall⟩
  · next jobId decidedAt peers reason =>
    cases hnext
    refine ⟨.refl _, rfl, fun x hx => ?_, fun _ => .inl⟩
    cases hx
    cases peers with
    | true => trivial
    | false => exact hsound
  · next jobId countAttempt provisioningError q now =>
    cases hnext
    refine answers_write settles_requeue fun x hx => ?_
    split at hx
    · cases hx
      trivial
    · exact h.finishRequeue (fun r hguard => (of_decide_eq_true hguard).1) settles_requeue x hx
  · next jobId expectedAgentId q now =>
    cases hnext
    exact answers_write settles_requeueIfAwaitingAck
      (h.finishRequeue (fun r hguard => (of_decide_eq_true hguard).1) settles_requeueIfAwaitingAck)
  · cases hnext
    exact answers_write settles_expireDispatchOfStoppedRun nofun
  · next jobId decidedAt q now =>
    cases hnext
    refine answers_fail (answers_write settles_markFailed fun x hx => ?_) rfl ?_
    · cases hx
      intro failed hmem
      obtain rfl := mem_singleton.1 hmem
      refine ⟨hsound.1.update fun r hid _ => ?_, hsound.2⟩
      rw [apply_of_guard (decide_eq_true hid)]
      exact .inr (.inl rfl)
    · exact forall_mem_singleton.2 hsound.2
  · next jobId q now =>
    simp only at hnext
    split at hnext
    · next hchanges =>
      cases hnext
      have hsince := h.notClaimedSince jobId
      refine answers_fail (answers_write settles_markFailedIfRecovering fun x hx => ?_) rfl ?_
      · cases hx
        intro failed hmem
        obtain rfl := mem_singleton.1 hmem
        have hrow := hasRow_of_changes hchanges fun r hguard => (of_decide_eq_true hguard).1
        refine ⟨hrow.update fun r _ hguard => ?_, hsince⟩
        rw [apply_of_guard hguard]
        exact .inr (.inl rfl)
      · exact forall_mem_singleton.2 hsince
    · cases hnext
      exact ⟨.refl _, rfl, nofun, fun _ => .inl⟩
  · next rows decidedAt q now =>
    cases hnext
    refine answers_fail (answers_write settles_sweepExpiredRecoveriesUpdate fun x hx => ?_) rfl ?_
    · cases hx
      intro jobId hmem
      refine ⟨(hsound jobId hmem).1.update fun r hid hover => ?_, (hsound jobId hmem).2⟩
      rcases hover with hrecovering | hterminal
      · rw [apply_of_guard (decide_eq_true ⟨hid ▸ hmem, hrecovering⟩)]
        exact .inr (.inl rfl)
      · rw [guarded_sweepExpiredRecoveriesUpdate.apply hterminal]
        exact hterminal
    · intro jobId hmem
      obtain ⟨r', hr', rfl⟩ := mem_map.1 hmem
      obtain ⟨r, -, hguard, rfl⟩ := mem_returning.1 hr'
      exact (hsound r.id (of_decide_eq_true hguard).1).2
  · next jobId decidedAt q now =>
    cases hnext
    exact answers_fail (answers_write settles_markFailed nofun) rfl (forall_mem_singleton.2 hsound)
  · next jobIds decidedAt =>
    cases hnext
    exact answers_fail ⟨.refl _, rfl, nofun, fun _ => .inl⟩ rfl fun jobId hmem => (hsound jobId hmem).2
  · cases hnext

theorem claimedAfter_none {clock : ℕ} {claimedAt : String → Option ℕ} :
    claimedAfter none clock claimedAt = claimedAt := by
  funext jobId
  exact if_neg (Option.some_ne_none jobId).symm

/-- What an action keeps, and what the calls rest on that it starts. -/
structure Acts (s t : FailureState) (claimed : Option String) : Prop where
  proceeds : Proceeds claimed s.db t.db
  calls : ∀ x ∈ t.calls, x ∈ s.calls ∨ x.Sound t.db (claimedAfter claimed s.clock s.claimedAt)
  failures : ∀ f ∈ t.failures, f ∈ s.failures ∨ NotClaimedSince s.claimedAt f.jobId f.decidedAt ∧
    f.claimedAt = s.claimedAt f.jobId

theorem acts_addCall (hproceeds : Proceeds claimed s.db t.db) (hcalls : t.calls = s.calls)
    (hfailures : t.failures = s.failures)
    (hcall : call.Sound t.db (claimedAfter claimed s.clock s.claimedAt)) :
    s.Acts (t.addCall call) claimed where
  proceeds := hproceeds
  calls x hx := by
    rcases mem_append.1 hx with hold | hnew
    · exact .inl (hcalls ▸ hold)
    · obtain rfl := mem_singleton.1 hnew
      exact .inr hcall
  failures f hf := .inl (hfailures ▸ hf)

theorem acts_refl : s.Acts s claimed := ⟨.refl _, fun _ => .inl, fun _ => .inl⟩

theorem acts_db {db : Db} (hproceeds : Proceeds claimed s.db db) :
    s.Acts { s with db } claimed := ⟨hproceeds, fun _ => .inl, fun _ => .inl⟩

theorem Sound.act (h : s.Sound) (hleaves : LeavesDecided s a) (hact : s.act a = some t) :
    s.Acts t (s.claims a) := by
  cases a with
  | claim q now agentId jobId =>
    cases hact
    simp only [claims]
    split
    · next hchanges =>
      have hproceeds : Proceeds (some jobId) s.db
        (s.write (q.claimRowById now jobId (some agentId))).db :=
        proceeds_of_settles settles_claimRowById
      refine acts_addCall hproceeds rfl rfl ?_
      exact (hasRow_of_changes hchanges fun r hguard => (of_decide_eq_true hguard).1).mono hproceeds
        fun _ _ _ _ _ => trivial
    · exact acts_refl
  | insertDispatched js q now job agentId =>
    cases hact
    simp only [claims]
    split
    · next hnone =>
      refine acts_addCall (t := { s with db := q.insertDispatched js s.db now job agentId })
        proceeds_insert rfl rfl ?_
      exact ⟨_, lookup_insertNew_self (isNone_iff_eq_none.1 hnone), trivial⟩
    · exact acts_refl
  | enqueue js now job timeoutMs =>
    cases hact
    exact acts_db proceeds_insert
  | markDispatchedIfRecovering q now agentId jobId =>
    cases hact
    refine acts_db (proceeds_update fun r hr hover hclaimed hguard => ?_)
    have hid : r.id = jobId := (of_decide_eq_true hguard).1
    rcases hclaimed with hterminal | hnot
    · rw [guarded_markDispatchedIfRecovering r hterminal] at hguard
      cases hguard
    · -- The row recovers, so that the agent claims the job.
      have hchanges : s.changes (q.markDispatchedIfRecovering now jobId agentId) := by
        rw [changes, Bool.not_eq_true', isEmpty_eq_false_iff_exists_mem]
        exact ⟨_, mem_returning.2 ⟨r, (lookup_eq_some.1 hr).1, hguard, rfl⟩⟩
      exact absurd (by rw [claims, if_pos hchanges, hid]; rfl) hnot
  | settleUnopenablePending q now jobId =>
    cases hact
    simp only [claims]
    split
    · next hchanges =>
      have hproceeds : Proceeds none s.db (s.write (q.claimUnopenableById s.db now jobId)).db :=
        proceeds_of_settles settles_claimUnopenableById
      refine acts_addCall hproceeds rfl rfl ?_
      rw [claimedAfter_none]
      exact ⟨(hasRow_of_changes hchanges fun r hguard => (of_decide_eq_true hguard).2.1).mono hproceeds
        fun _ _ _ _ _ => trivial, h.notClaimedSince jobId⟩
    · exact acts_refl
  | requeueOrFail | requeueIfAwaitingAck | handleRecoveryExpiry =>
    cases hact
    exact acts_addCall (.refl _) rfl rfl trivial
  | sweepExpiredRecoveries now =>
    cases hact
    refine acts_addCall (.refl _) rfl rfl fun jobId hmem => ?_
    obtain ⟨r, hr, rfl⟩ := mem_map.1 hmem
    obtain ⟨hrow, hselected⟩ := mem_filter.1 hr
    refine ⟨⟨r, lookup_of_mem hrow, .inl (of_decide_eq_true hselected).1⟩, ?_⟩
    simp only [claims, claimedAfter_none]
    exact h.notClaimedSince r.id
  | cancelQueuedJob jobId =>
    cases hact
    refine acts_addCall (.refl _) rfl rfl ?_
    simp only [claims, claimedAfter_none]
    exact h.notClaimedSince jobId
  | next k answer =>
    obtain ⟨call, hcall, hact⟩ := bind_eq_some_iff.1 hact
    obtain ⟨⟨t', next⟩, hnext, heq⟩ := bind_eq_some_iff.1 hact
    cases heq
    have hanswers := h.callNext hleaves hcall hnext
    refine ⟨hanswers.proceeds, fun x hx => ?_, hanswers.failures⟩
    rcases mem_or_mem_of_replaced hx with hold | hnew
    · exact .inl (hanswers.calls ▸ hold)
    · simp only [claims, claimedAfter_none]
      exact .inr (hanswers.next x (mem_toList.1 hnew))
  | write q w =>
    cases hact
    exact acts_db (proceeds_of_settles (OtherWrite.settles w))
  | setRuns executionRuns clusterInstances now =>
    cases hact
    exact acts_db (Proceeds.refl s.db)

theorem Sound.step (h : s.Sound) (hleaves : LeavesDecided s a)
    (hstep : failureSystem.step s a = some t) : t.Sound := by
  obtain ⟨u, hu, rfl⟩ := map_eq_some_iff.1 hstep
  have hacts := h.act hleaves hu
  refine ⟨fun jobId t ht => ?_, fun x hx => ?_, fun f hf t ht => ?_⟩
  · simp only at ht
    split at ht
    · cases ht
      exact Nat.lt_succ_self _
    · exact (h.clock jobId t ht).trans (Nat.lt_succ_self _)
  · rcases hacts.calls x hx with hold | hnew
    · exact (h.calls x hold).after hacts.proceeds
        (fun jobId hclaimed => hleaves.claims jobId hclaimed x hold)
        fun jobId => not_terminal_of_claims
    · exact hnew
  · rcases hacts.failures f hf with hold | ⟨hsince, hlast⟩
    · exact h.failures f hold t ht
    · exact hsince t (hlast ▸ ht)

end FailureState

/-- If jobs are left alone that a call has decided to fail, then no agent has claimed a job since
the decision when it is failed, nor when it is told. -/
theorem not_claimed_of_failed {s : FailureState} (h : failureSystem.Reachable LeavesDecided s) :
    ∀ f ∈ s.failures, ∀ t ∈ f.claimedAt, t ≤ f.decidedAt := by
  have hsound : s.Sound := by
    refine h.invariant ?_ fun s a t hs hleaves hstep => hs.step hleaves hstep
    rintro s ⟨db, rfl⟩
    exact ⟨nofun, nofun, nofun⟩
  exact hsound.failures

/-- A test of `LeavesDecided`, for jobs whose secrets can be opened. -/
def leavesDecidedTest (s : FailureState) (a : FailureAction) : Bool :=
  (s.claims a).all (fun jobId => s.calls.all fun call => jobId ∉ call.decides) &&
    match a with
    | .next k (.run _ _) =>
      match s.calls[k]? with
      | some (.markDispatched _ jobId _) => (s.db.row? jobId).all fun r => r.status = .dispatched
      | _ => true
    | .next _ .secretsUnavailable => false
    | _ => true

theorem leavesDecided_of_test (s : FailureState) (a : FailureAction) (h : leavesDecidedTest s a) :
    LeavesDecided s a := by
  obtain ⟨hclaims, hnext⟩ := Bool.and_eq_true_iff.1 h
  refine ⟨fun jobId hclaimed call hcall => ?_, ?_, ?_⟩
  · have hall := (Option.all_eq_true _ _).1 hclaims jobId hclaimed
    exact of_decide_eq_true (all_eq_true.1 hall call hcall)
  · rintro k q now agentId jobId claimedAt rfl hcall r hr
    simpa [hcall, hr] using hnext
  · rintro k jobId claimedAt rfl
    cases hnext

/-- A job of the run `run`, put back on the queue four times. -/
def putBackRow (status : DispatchQueueStatus) : DispatchRow where
  id := "build"
  runId := "run"
  jobName := "build"
  status
  createdAt := 0
  dispatchAttempts := 4

/-- A queue with a job that was put back four times. -/
def putBackQueue (status : DispatchQueueStatus) : FailureState where
  db := {
    dispatchQueue := singleton DispatchRow.id (putBackRow status)
    executionRuns := []
    clusterInstances := []
    now := 0 }

/-- A job that an agent claims and rejects, and that is failed, as it was put back too often. -/
theorem not_claimed_of_failed_rejected : ∃ s : FailureState, failureSystem.Reachable LeavesDecided s ∧
    s.failures.length = 2 ∧ ∀ f ∈ s.failures, ∀ t ∈ f.claimedAt, t ≤ f.decidedAt := by
  obtain ⟨s, hpath, hs⟩ := failureSystem.exists_path (putBackQueue .pending)
    (fun s => s.failures.length = 2)
    leavesDecided_of_test [
      .claim {} 0 "builder" "build",
      .next 0 (.run {} 0),
      .next 0 .sent,
      .requeueOrFail "build" true,
      .next 0 (.run {} 0),
      .next 0 (.run {} 0),
      .next 0 .sent] (by decide)
  have h : failureSystem.Reachable LeavesDecided s := ⟨_, ⟨_, rfl⟩, hpath⟩
  exact ⟨s, h, hs, not_claimed_of_failed h⟩

/-- A run in which an agent claims a job between the two statements by which it is put back too
often, and is failed. -/
theorem exists_failed_claimed : ∃ s : FailureState, failureSystem.Reachable System.anyStep s ∧
    ∃ f ∈ s.failures, ∃ t ∈ f.claimedAt, f.decidedAt < t := by
  obtain ⟨s, hpath, hs⟩ := failureSystem.exists_path (putBackQueue .dispatched)
      (fun s => s.failures.any fun f => f.claimedAt.any fun t => f.decidedAt < t)
        System.anyStep_of_true [
      .requeueOrFail "build" true,
      .next 0 (.run {} 0),
      .claim {} 0 "builder" "build",
      .next 0 (.run {} 0)] (by decide)
  obtain ⟨f, hf, hclaimed⟩ := any_eq_true.1 hs
  obtain ⟨t, ht, hlt⟩ := (Option.any_eq_true _ _).1 hclaimed
  exact ⟨s, ⟨_, ⟨_, rfl⟩, hpath⟩, f, hf, t, ht, of_decide_eq_true hlt⟩

end Kici
