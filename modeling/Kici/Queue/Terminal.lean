import Kici.Queue.QueueSystem

/-!
# Terminal rows

A row that is completed, failed or expired stays as it is, as long as the updates
that look for a row by its id alone are not applied to it: `markDispatched`,
`markFailed`, the update of `markExpired`, and `clearAckDeadline`
(`QueueState.TerminalSafe`). All other updates check the status
(`Update.Guarded`), so that no condition is needed on them.

* `terminal_absorbing`: in a run whose steps are safe, a terminal row never changes;
* `exists_terminal_left`: a claimed job is failed with its run, and then marked
  dispatched by the coordinator that claimed it.
-/

namespace Kici

open JobQueue System QueueState Option

variable {rows : List DispatchRow}

/-- Whether the row is over. -/
def DispatchRow.Terminal (r : DispatchRow) : Prop :=
  r.status = .completed ∨ r.status = .failed ∨ r.status = .expired

instance (r : DispatchRow) : Decidable r.Terminal := inferInstanceAs (Decidable (_ ∨ _ ∨ _))

/-- An update that checks that rows are not over. -/
def Update.Guarded (u : DispatchUpdate) : Prop := ∀ r, r.Terminal → u.guard r = false

variable {r : DispatchRow} {u : DispatchUpdate}

theorem Update.Guarded.apply (hu : u.Guarded) (hr : r.Terminal) : u.apply r = r :=
  apply_of_not_guard (hu r hr)

namespace JobQueue

/-! ## The updates that check the status -/

variable {q : JobQueue} {db : Db} {now : ℕ} {jobId agentId : String}

theorem guarded_claimRowById {agentId : Option String} :
    (q.claimRowById now jobId agentId).Guarded := by
  rintro r (h | h | h) <;> simp [claimRowById, h]

theorem guarded_markCompleted : (markCompleted jobId).Guarded := by
  rintro r (h | h | h) <;> simp [markCompleted, h]

theorem guarded_markRecovering {deadline : Option ℕ} {agentId : Option String} :
    (q.markRecovering db jobId deadline agentId).Guarded := by
  rintro r (h | h | h) <;> simp [markRecovering, h]

theorem guarded_sweepExpiredRecoveriesUpdate :
    (sweepExpiredRecoveriesUpdate rows).Guarded := by
  rintro r (h | h | h) <;> simp [sweepExpiredRecoveriesUpdate, h]

theorem guarded_markFailedIfRecovering : (markFailedIfRecovering jobId).Guarded := by
  rintro r (h | h | h) <;> simp [markFailedIfRecovering, h]

theorem guarded_markDispatchedIfRecovering :
    (q.markDispatchedIfRecovering now jobId agentId).Guarded := by
  rintro r (h | h | h) <;> simp [markDispatchedIfRecovering, h]

/-! ## The updates that do not -/

/-- Failing a failed row again changes nothing. -/
theorem markFailed_apply {r : DispatchRow} (h : r.status = .failed) :
    (markFailed jobId).apply r = r := by
  rw [Update.apply]
  split
  · simp only [markFailed]
    rw [← h]
  · rfl

/-- Expiring an expired row again changes nothing. -/
theorem markExpiredUpdate_apply {r : DispatchRow}
    (h : r.status = .expired) : (markExpiredUpdate rows).apply r = r := by
  rw [Update.apply]
  split
  · simp only [markExpiredUpdate]
    rw [← h]
  · rfl

end JobQueue

namespace Db

variable {db : Db} {jobId : String}

theorem row?_update (h : db.row? jobId = some r) :
    (db.update u).row? jobId = some (u.apply r) := by
  rw [row?, update, Table.lookup_execute, ← row?, h, map_some]

theorem row?_insert (h : db.row? jobId = some r) (r' : DispatchRow) :
    (db.insert r').row? jobId = some r := Table.lookup_insertNew h r'

end Db

/-! ## Runs -/

/-- The steps that apply no update that goes by the id alone to a terminal row it
would change. -/
def QueueState.TerminalSafe (s : QueueState) : QueueAction → Prop
  | .markDispatched _ _ k => ∀ jobId agentId, s.calls[k]? = some (.dispatching jobId agentId) →
      ∀ r, s.db.row? jobId = some r → ¬r.Terminal
  | .markFailed jobId => ∀ r, s.db.row? jobId = some r → r.Terminal → r.status = .failed
  | .markExpiredUpdate k => ∀ rows, s.calls[k]? = some (.markExpired rows) →
      ∀ jobId ∈ rows.map DispatchRow.id, ∀ r, s.db.row? jobId = some r → r.Terminal →
        r.status = .expired
  | .clearAckDeadline jobId => ∀ r, s.db.row? jobId = some r → ¬r.Terminal
  | _ => True

variable {js : JsRuntime} {order : OrderBy DispatchRow.createdAt} {s t : QueueState}
  {jobId : String}

/-- A safe step leaves a terminal row. -/
theorem QueueState.TerminalSafe.row?_step {a : QueueAction} (ha : s.TerminalSafe a)
    (hstep : s.step js order a = some t) (hr : s.db.row? jobId = some r) (hterm : r.Terminal) :
    t.db.row? jobId = some r := by
  have hid : r.id = jobId := (Table.lookup_eq_some.1 hr).2
  have hguarded : ∀ {u : DispatchUpdate}, u.Guarded → (s.db.update u).row? jobId = some r :=
    fun hu => by rw [Db.row?_update hr, hu.apply hterm]
  have hother : ∀ {u : DispatchUpdate}, u.guard r = false → (s.db.update u).row? jobId = some r :=
    fun hu => by rw [Db.row?_update hr, Update.apply_of_not_guard hu]
  unfold step at hstep
  cases a with
  | markDispatched q now k =>
    simp only at hstep
    split at hstep
    · next j agentId hcall =>
      cases hstep
      refine hother (decide_eq_false fun hj => ?_)
      exact ha j agentId hcall r (by rw [← hj, hid]; exact hr) hterm
    · cases hstep
  | markFailed j =>
    cases hstep
    by_cases hj : r.id = j
    · have hfailed := ha r (by rw [← hj, hid]; exact hr) hterm
      rw [write, Db.row?_update hr, markFailed_apply hfailed]
    · exact hother (decide_eq_false hj)
  | markExpiredUpdate k =>
    simp only at hstep
    split at hstep
    · next rows hcall =>
      cases hstep
      by_cases hj : r.id ∈ rows.map DispatchRow.id
      · have hexpired := ha rows hcall r.id hj r (by rw [hid]; exact hr) hterm
        rw [sweep, write, Db.row?_update hr,
          markExpiredUpdate_apply hexpired]
      · exact hother (decide_eq_false hj)
    · cases hstep
  | clearAckDeadline j =>
    cases hstep
    refine hother (decide_eq_false fun hj => ?_)
    exact ha r (by rw [← hj, hid]; exact hr) hterm
  | enqueue =>
    cases hstep
    exact Db.row?_insert hr _
  | insertDispatched =>
    simp only at hstep
    split at hstep <;> cases hstep
    · exact hr
    · exact Db.row?_insert hr _
  | claimRowById =>
    cases hstep
    exact hguarded guarded_claimRowById
  | markCompleted =>
    cases hstep
    exact hguarded guarded_markCompleted
  | startRecoveryForDisconnect | startRecoveryTimer =>
    obtain ⟨-, ⟨⟩⟩ := ite_none_right_eq_some.1 hstep
    exact hguarded guarded_markRecovering
  | sweepExpiredRecoveriesUpdate k =>
    simp only at hstep
    split at hstep
    · cases hstep
      exact hguarded guarded_sweepExpiredRecoveriesUpdate
    · cases hstep
  | markFailedIfRecovering =>
    cases hstep
    exact hguarded guarded_markFailedIfRecovering
  | reconcileRecovery =>
    obtain ⟨-, ⟨⟩⟩ := ite_none_right_eq_some.1 hstep
    exact hguarded guarded_markDispatchedIfRecovering
  | settleClaimOfStoppedRun | claimPatternFree | claimUnopenableById | failByRunId | cancelByRunId
  | setAckDeadline |
      requeue | requeueIfAwaitingAck | claimUnroutable =>
    cases hstep
    refine hguarded ?_
    rintro r (h | h | h) <;> simp [expireDispatchOfStoppedRun, claimPatternFree, claimUnopenableById,
      failByRunId, cancelByRunId, setAckDeadline, requeue, requeueIfAwaitingAck, claimUnroutable, h]
  | markExpiredSelect | sweepExpiredRecoveriesSelect | readOrphans | recoverState | setRunStatus |
      heartbeat | tick =>
    cases hstep
    exact hr

/-- In a run whose steps are safe, a row that is completed, failed or expired never
changes. -/
theorem terminal_absorbing (h : (queueSystem js order).Path TerminalSafe s t)
    (hr : s.db.row? jobId = some r) (hterm : r.Terminal) : t.db.row? jobId = some r :=
  h.invariant hr fun _ _ _ hr ha hstep => ha.row?_step hstep hr hterm

/-- A test for steps that are safe as they check the status. -/
def guardedStepTest (_ : QueueState) : QueueAction → Bool
  | .enqueue .. | .claimRowById .. | .markCompleted _ | .failByRunId _ | .requeue .. => true
  | _ => false

theorem terminalSafe_of_test (s : QueueState) (a : QueueAction) (h : guardedStepTest s a) :
    s.TerminalSafe a := by
  cases a <;> trivial

/-- A completed job stays as it is when its run fails. -/
theorem terminal_absorbing_completed : ∃ s t : QueueState, ∃ r : DispatchRow,
    lowercaseQueueSystem.Path TerminalSafe s t ∧ r.status = .completed ∧
      s.db.row? "job" = some r ∧ t.db.row? "job" = some r := by
  obtain ⟨s, t, -, hst, h⟩ : ∃ s t,
      lowercaseQueueSystem.Path TerminalSafe emptyQueue s ∧
      lowercaseQueueSystem.Path TerminalSafe s t ∧
      (s.db.row? "job").any (fun r => r.status = .completed) :=
    exists_paths_of_run terminalSafe_of_test
      [.enqueue 0 anyAgentJob 0, .claimRowById {} 1 "job" (some "agent"), .markCompleted "job"]
      [.failByRunId "run", .requeue "job" true none] (by decide)
  obtain ⟨r, hr, hdone⟩ := (any_eq_true ..).1 h
  have hdone := of_decide_eq_true hdone
  exact ⟨s, t, r, hst, hdone, hr, terminal_absorbing hst hr (.inl hdone)⟩

/-- A run in which a failed row is dispatched: the run fails between the claim of its
job and the update that marks the job dispatched. -/
theorem exists_terminal_left : ¬∀ s t : QueueState,
    lowercaseQueueSystem.Reachable anyStep s →
    lowercaseQueueSystem.Path anyStep s t → ∀ jobId r, s.db.row? jobId = some r →
    r.Terminal → t.db.row? jobId = some r := by
  intro h
  obtain ⟨s, t, hs, hst, hstatus⟩ : ∃ s t,
      lowercaseQueueSystem.Path anyStep emptyQueue s ∧
      lowercaseQueueSystem.Path anyStep s t ∧
      ((s.db.row? "job").any (fun r => r.status = .failed) &&
        (t.db.row? "job").any (fun r => r.status = .dispatched)) :=
    exists_paths_of_run anyStep_of_true
      [.enqueue 0 anyAgentJob 0, .claimRowById {} 1 "job" (some "agent"), .failByRunId "run"]
      [.markDispatched {} 2 0] (by decide)
  rw [Bool.and_eq_true] at hstatus
  obtain ⟨r, hr, hfailed⟩ := (any_eq_true ..).1 hstatus.1
  obtain ⟨r', hr', hdispatched⟩ := (any_eq_true ..).1 hstatus.2
  have hfailed := of_decide_eq_true hfailed
  have hsame := h s t ⟨_, emptyQueue_mem_init _ _, hs⟩ hst "job" r hr (.inr (.inl hfailed))
  rw [hr'] at hsame
  rw [some.inj hsame, hfailed] at hdispatched
  cases hdispatched

end Kici
