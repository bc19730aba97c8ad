import Kici.Queue.Terminal

/-!
# Who owned a job

`hasAgentOwnedJob` answers from the row of the job alone. What rows say of agents
is true, over whole runs of the coordinators: an agent that a row names was handed
the job (`QueueState.OwnersHanded`), except for the placeholder `unknown` that a
booting coordinator records when it finds no agent.

A terminal row is taken to be owned by any agent, so the answer is sound exactly
when the agent was handed the job (`hasAgentOwnedJob_sound_iff`);
`exists_unsound_answer` is a run in which it was not.
-/

namespace Kici

open List Option JobQueue Table System

namespace QueueState

/-- The agents a row names were handed its job, or are the placeholder. -/
structure RowHanded (s : QueueState) (r : DispatchRow) : Prop where
  agentId : ∀ a, r.agentId = some a → s.WasHanded r.id a
  recoveryAgentId : ∀ a, r.recoveryAgentId = some a → s.WasHanded r.id a ∨ a = "unknown"

/-- All that the state says of agents is true. -/
structure OwnersHanded (s : QueueState) : Prop where
  rows : ∀ r ∈ s.db.dispatchQueue, s.RowHanded r
  dispatching : ∀ j a, .dispatching j a ∈ s.calls → s.WasHanded j a
  tracked : ∀ p ∈ s.tracked, s.WasHanded p.1 p.2 ∨ p.2 = "unknown"
  recovering : ∀ p ∈ s.recovering, s.WasHanded p.1 p.2 ∨ p.2 = "unknown"
  orphans : ∀ j a, (j, some a) ∈ s.orphans → s.WasHanded j a

variable {js : JsRuntime} {order : OrderBy DispatchRow.createdAt} {s t : QueueState}
  {u : DispatchUpdate}

theorem WasHanded.mono {j a : String} (h : s.WasHanded j a) (hlog : s.log ⊆ t.log) :
    t.WasHanded j a := h.imp (@hlog _) (@hlog _)

theorem RowHanded.mono {r : DispatchRow} (h : s.RowHanded r) (hlog : s.log ⊆ t.log) :
    t.RowHanded r :=
  ⟨fun a ha => (h.agentId a ha).mono hlog,
    fun a ha => (h.recoveryAgentId a ha).imp_left fun h => h.mono hlog⟩

section

variable (hs : s.OwnersHanded)
include hs

/-- The invariant after a step that changes rows, calls and memory only in ways that are
true. -/
theorem OwnersHanded.extend (hlog : s.log ⊆ t.log)
    (hrows : (∀ r ∈ s.db.dispatchQueue, t.RowHanded r) → ∀ r ∈ t.db.dispatchQueue, t.RowHanded r)
    (hcalls : ∀ j a, .dispatching j a ∈ t.calls → .dispatching j a ∈ s.calls ∨ t.WasHanded j a)
    (htracked : ∀ p ∈ t.tracked, p ∈ s.tracked ∨ t.WasHanded p.1 p.2 ∨ p.2 = "unknown")
    (hrecovering : ∀ p ∈ t.recovering, p ∈ s.recovering ∨ t.WasHanded p.1 p.2 ∨ p.2 = "unknown")
    (horphans : ∀ j a, (j, some a) ∈ t.orphans → (j, some a) ∈ s.orphans ∨ t.WasHanded j a) :
    t.OwnersHanded where
  rows := hrows fun r hr => (hs.rows r hr).mono hlog
  dispatching j a h := (hcalls j a h).elim (fun h => (hs.dispatching j a h).mono hlog) id
  tracked p h := (htracked p h).elim
    (fun h => (hs.tracked p h).imp_left fun h => h.mono hlog) id
  recovering p h := (hrecovering p h).elim
    (fun h => (hs.recovering p h).imp_left fun h => h.mono hlog) id
  orphans j a h := (horphans j a h).elim (fun h => (hs.orphans j a h).mono hlog) id

/-- The invariant after an update that names no new agents. -/
theorem OwnersHanded.write
    (hset : ∀ t : QueueState, ∀ r, t.RowHanded r → t.RowHanded (u.set r)) :
    (s.write u).OwnersHanded :=
  hs.extend (List.Subset.refl _)
    (fun h => forall_mem_execute h fun r _ _ hr => hset _ r hr)
    (fun _ _ => .inl) (fun _ => .inl) (fun _ => .inl) (fun _ _ => .inl)

/-- The invariant after the update of a sweep. -/
theorem OwnersHanded.sweep {k : ℕ} {rows : List DispatchRow}
    (hset : ∀ t : QueueState, ∀ r, t.RowHanded r → t.RowHanded (u.set r)) :
    (s.sweep k rows u).OwnersHanded :=
  hs.extend (subset_append_left _ _)
    (fun h => forall_mem_execute h fun r _ _ hr => hset _ r hr)
    (fun _ _ h => .inl (eraseIdx_subset h)) (fun _ => .inl) (fun _ => .inl) (fun _ _ => .inl)

/-- The invariant after a claim, which hands the job to its agent. -/
theorem OwnersHanded.claim {agentId : Option String}
    (hagent : ∀ r, (u.set r).agentId = agentId.or r.agentId)
    (hrecovery : ∀ r, (u.set r).recoveryAgentId = r.recoveryAgentId) :
    (s.claim u agentId).OwnersHanded := by
  have hhanded : ∀ r ∈ s.db.dispatchQueue, u.guard r → ∀ a ∈ agentId,
      (s.claim u agentId).WasHanded r.id a := by
    intro r hr hg a ha
    refine .inl (mem_append_right _ (mem_flatMap.2 ⟨r.id, ?_, ?_⟩))
    · exact mem_map.2 ⟨u.set r, mem_returning.2 ⟨r, hr, hg, rfl⟩, u.key_set r⟩
    · exact mem_cons_of_mem _ (mem_map.2 ⟨a, by simpa using ha, rfl⟩)
  refine hs.extend (subset_append_left _ _) (fun h => ?_) (fun j a hcall => ?_)
    (fun _ => .inl) (fun _ => .inl) (fun _ _ => .inl)
  · refine forall_mem_execute h fun r hr hg hrow => ⟨fun a ha => ?_, fun a ha => ?_⟩
    · rw [u.key_set]
      rw [hagent, or_eq_some_iff] at ha
      exact ha.elim (hhanded r hr hg a) fun ha => hrow.agentId a ha.2
    · rw [u.key_set]
      rw [hrecovery] at ha
      exact hrow.recoveryAgentId a ha
  · rcases mem_append.1 hcall with h | h
    · exact .inl h
    · obtain ⟨j', hj', h⟩ := mem_flatMap.1 h
      obtain ⟨a', ha', h⟩ := mem_map.1 h
      obtain ⟨rfl, rfl⟩ := QueueCall.dispatching.inj h
      obtain ⟨r, hr, rfl⟩ := mem_map.1 hj'
      obtain ⟨r₀, hr₀, hg, rfl⟩ := mem_returning.1 hr
      rw [u.key_set]
      exact .inr (hhanded r₀ hr₀ hg a' (by simpa using ha'))

/-- The invariant after a job starts to recover, for an agent it was handed to or the
placeholder. -/
theorem OwnersHanded.startRecovery {q : JobQueue} {j a : String}
    {deadline : ℕ} (h : s.WasHanded j a ∨ a = "unknown") :
    (s.startRecovery q j a deadline).OwnersHanded := by
  refine hs.extend (List.Subset.refl _) (fun hrows => ?_) (fun _ _ => .inl) (fun _ => .inl)
    (fun p hp => ?_) (fun _ _ => .inl)
  · refine forall_mem_execute hrows fun r _ hg hrow => ⟨hrow.agentId, fun a' ha' => ?_⟩
    simp only [markRecovering, decide_eq_true_eq] at hg
    obtain rfl : a = a' := by simpa [markRecovering] using ha'
    rw [← hg.1] at h
    exact h
  · rcases mem_append.1 hp with hp | hp
    · exact .inl hp
    · obtain rfl := mem_singleton.1 hp
      exact .inr h

/-- Every step keeps the invariant. -/
theorem OwnersHanded.step {a : QueueAction}
    (hstep : s.step js order a = some t) : t.OwnersHanded := by
  unfold QueueState.step at hstep
  cases a with
  | enqueue now job timeoutMs =>
    cases hstep
    refine hs.extend (List.Subset.refl _) (fun h r hr => ?_) (fun _ _ => .inl) (fun _ => .inl)
      (fun _ => .inl) (fun _ _ => .inl)
    rcases mem_insertNew hr with hr | rfl
    · exact h r hr
    · exact ⟨fun _ ha => (by cases ha), fun _ ha => (by cases ha)⟩
  | insertDispatched q now job agentId =>
    simp only at hstep
    split at hstep <;> cases hstep
    · exact hs
    · set t : QueueState := { s with
        db := insertDispatched js q s.db now job agentId
        tracked := s.tracked ++ [(job.jobId, agentId)]
        log := s.log ++ [.handed job.jobId agentId] }
      have hhanded : t.WasHanded job.jobId agentId :=
        .inl (mem_append_right _ mem_cons_self)
      refine hs.extend (subset_append_left _ _) (fun h r hr => ?_) (fun _ _ => .inl)
        (fun p hp => ?_) (fun _ => .inl) (fun _ _ => .inl)
      · rcases mem_insertNew hr with hr | rfl
        · exact h r hr
        · refine ⟨fun a ha => ?_, fun _ ha => (by cases ha)⟩
          cases ha
          exact hhanded
      · rcases mem_append.1 hp with hp | hp
        · exact .inl hp
        · obtain rfl := mem_singleton.1 hp
          exact .inr (.inl hhanded)
  | settleClaimOfStoppedRun | requeue | requeueIfAwaitingAck =>
    cases hstep
    exact hs.write fun _ _ hr => ⟨fun _ ha => (by cases ha), hr.recoveryAgentId⟩
  | claimPatternFree | claimRowById =>
    cases hstep
    exact hs.claim (fun _ => rfl) fun _ => rfl
  | claimUnopenableById =>
    cases hstep
    exact hs.claim (fun _ => by simp [claimUnopenableById, claimTransition])
      fun _ => rfl
  | markDispatched q now k =>
    simp only at hstep
    split at hstep
    · next j a hcall =>
      cases hstep
      have hhanded := hs.dispatching j a (mem_of_getElem? hcall)
      refine hs.extend (List.Subset.refl _) (fun hrows => ?_)
        (fun _ _ h => .inl (eraseIdx_subset h)) (fun p hp => ?_) (fun _ => .inl)
        (fun _ _ => .inl)
      · refine forall_mem_execute hrows fun r _ hg hr => ⟨fun a' ha' => ?_, hr.recoveryAgentId⟩
        cases ha'
        rw [← of_decide_eq_true hg] at hhanded
        exact hhanded
      · rcases mem_append.1 hp with hp | hp
        · exact .inl hp
        · obtain rfl := mem_singleton.1 hp
          exact .inr (.inl hhanded)
    · cases hstep
  | markFailed | markCompleted | failByRunId | cancelByRunId | setAckDeadline | clearAckDeadline |
      markFailedIfRecovering | claimUnroutable =>
    cases hstep
    exact hs.write fun _ _ hr => ⟨hr.agentId, hr.recoveryAgentId⟩
  | markExpiredSelect | sweepExpiredRecoveriesSelect =>
    cases hstep
    refine hs.extend (List.Subset.refl _) id (fun _ _ h => ?_) (fun _ => .inl) (fun _ => .inl)
      (fun _ _ => .inl)
    exact .inl (by simpa using h)
  | markExpiredUpdate | sweepExpiredRecoveriesUpdate =>
    simp only at hstep
    split at hstep
    · cases hstep
      exact hs.sweep fun _ _ hr => ⟨hr.agentId, hr.recoveryAgentId⟩
    · cases hstep
  | startRecoveryForDisconnect q j a deadline =>
    obtain ⟨htracked, ⟨⟩⟩ := ite_none_right_eq_some.1 hstep
    exact hs.startRecovery (hs.tracked _ htracked)
  | startRecoveryTimer q j agentId deadline =>
    obtain ⟨horphan, ⟨⟩⟩ := ite_none_right_eq_some.1 hstep
    refine hs.startRecovery ?_
    cases agentId with
    | none => exact .inr rfl
    | some a => exact .inl (hs.orphans j a horphan)
  | reconcileRecovery q now j a =>
    obtain ⟨hrecovering, ⟨⟩⟩ := ite_none_right_eq_some.1 hstep
    refine hs.extend (subset_append_left _ _) (fun hrows => ?_) (fun _ _ => .inl)
      (fun p hp => ?_) (fun p hp => .inl (mem_of_mem_erase hp)) (fun _ _ => .inl)
    · refine forall_mem_execute hrows fun r hr hg hrow =>
        ⟨fun a' ha' => ?_, fun _ ha => (by cases ha)⟩
      -- The update is what hands the job to the agent.
      cases ha'
      refine .inr (mem_append_right _ (mem_map.2 ⟨_, mem_returning.2
        ⟨r, hr, hg, rfl⟩, ?_⟩))
      simp only [markDispatchedIfRecovering, decide_eq_true_eq] at hg
      simp [markDispatchedIfRecovering, hg.1]
    · rcases mem_append.1 hp with hp | hp
      · exact .inl hp
      · obtain rfl := mem_singleton.1 hp
        exact .inr ((hs.recovering _ hrecovering).imp_left fun h =>
          h.mono (subset_append_left _ _))
  | readOrphans q =>
    cases hstep
    refine hs.extend (List.Subset.refl _) id (fun _ _ => .inl) (fun _ => .inl) (fun _ => .inl)
      (fun j a h => ?_)
    rcases mem_append.1 h with h | h
    · exact .inl h
    · obtain ⟨r, hr, h⟩ := mem_map.1 h
      obtain ⟨rfl, ha⟩ := Prod.mk.inj h
      exact .inr ((hs.rows r (mem_of_mem_filter hr)).agentId a ha)
  | recoverState q now =>
    cases hstep
    refine hs.extend (List.Subset.refl _) id (fun _ _ => .inl) (fun _ => .inl) (fun p hp => ?_)
      (fun _ _ => .inl)
    rcases mem_append.1 hp with hp | hp
    · exact .inl hp
    · obtain ⟨r, hr, hp⟩ := mem_flatMap.1 hp
      obtain ⟨a, ha, rfl⟩ := mem_map.1 hp
      have hrow := hs.rows r (mem_of_mem_filter (mem_of_mem_filter hr))
      simp only [mem_toList, filter_eq_some_iff] at ha
      exact .inr (hrow.recoveryAgentId a ha.1)
  | setRunStatus | heartbeat | tick =>
    cases hstep
    exact hs.extend (List.Subset.refl _) id (fun _ _ => .inl) (fun _ => .inl) (fun _ => .inl)
      (fun _ _ => .inl)

end

/-- What a run from an empty queue says of agents is true. -/
theorem ownersHanded_of_reachable (h : (queueSystem js order).Reachable anyStep s) :
    s.OwnersHanded := by
  refine h.invariant (fun s hs => ?_) fun _ _ _ hs _ hstep => hs.step hstep
  obtain ⟨hrows, hcalls, htracked, hrecovering, horphans, -⟩ := hs
  constructor <;> simp [hrows, hcalls, htracked, hrecovering, horphans, empty, Table.mem_def]

/-- Whether the answer on an agent and a job is sound: if it is that the agent owns the
job, the row names the agent as its owner, or as the one it recovers for, or is
terminal; and the job was handed to the agent. -/
def AnswerSound (s : QueueState) (agentId jobId : String) : Prop :=
  hasAgentOwnedJob s.db jobId agentId → s.WasHanded jobId agentId ∧
    ∃ r, s.db.row? jobId = some r ∧
      (r.status = .dispatched ∧ r.agentId = some agentId ∨
        r.status = .recovering ∧ r.recoveryAgentId = some agentId ∨ r.Terminal)

end QueueState

/-- In every state of a run, the answer on an agent and a job is sound if and only if
the agent was handed the job, in case the row is terminal, or recovers for an agent
of that name that is the placeholder. -/
theorem hasAgentOwnedJob_sound_iff {js : JsRuntime} {order : OrderBy DispatchRow.createdAt}
    {s : QueueState} (h : (queueSystem js order).Reachable anyStep s)
    (agentId jobId : String) : s.AnswerSound agentId jobId ↔
      ∀ r, s.db.row? jobId = some r → r.Terminal ∨
        r.status = .recovering ∧ r.recoveryAgentId = some agentId ∧ agentId = "unknown" →
        s.WasHanded jobId agentId := by
  have hs := QueueState.ownersHanded_of_reachable h
  constructor
  · rintro hsound r hr hcase
    refine (hsound ?_).1
    rw [hasAgentOwnedJob]
    rcases hcase with (hst | hst | hst) | ⟨hst, hag, -⟩ <;> simp [*]
  · intro hcond hown
    cases hr : s.db.row? jobId with
    | none => simp [hasAgentOwnedJob, hr] at hown
    | some r =>
      obtain ⟨hmem, rfl⟩ := lookup_eq_some.1 hr
      have hrow := hs.rows r hmem
      simp only [hasAgentOwnedJob, hr] at hown
      split at hown
      · next hst => exact ⟨hrow.agentId _ hst.2, r, rfl, .inl hst⟩
      · split at hown
        · next hst =>
          refine ⟨?_, r, rfl, .inr (.inl hst)⟩
          rcases hrow.recoveryAgentId _ hst.2 with hhanded | hunknown
          · exact hhanded
          · exact hcond r hr (.inr ⟨hst.1, hst.2, hunknown⟩)
        · have hterm : r.Terminal := of_decide_eq_true hown
          exact ⟨hcond r hr (.inl hterm), r, rfl, .inr (.inr hterm)⟩

/-- An agent is handed a job, whose row then names it. -/
theorem hasAgentOwnedJob_sound_claimed : ∃ s : QueueState,
    hasAgentOwnedJob s.db "job" "agent" ∧ s.AnswerSound "agent" "job" := by
  obtain ⟨s, hpath, hs⟩ := lowercaseQueueSystem.exists_path emptyQueue
      (fun s => hasAgentOwnedJob s.db "job" "agent" && s.log.contains (.handed "job" "agent"))
    anyStep_of_true
      [.enqueue 0 anyAgentJob 0, .claimRowById {} 1 "job" (some "agent"), .markCompleted "job"]
      (by decide)
  rw [Bool.and_eq_true] at hs
  refine ⟨s, hs.1, (hasAgentOwnedJob_sound_iff ⟨_, emptyQueue_mem_init _ _, hpath⟩ ..).2 ?_⟩
  exact fun _ _ _ => .inl (by simpa using hs.2)

/-- A run in which an agent that never was handed a job is taken to own it, as the job
is completed. -/
theorem exists_unsound_answer : ¬∀ s : QueueState,
    lowercaseQueueSystem.Reachable anyStep s → ∀ agentId jobId,
    s.AnswerSound agentId jobId := by
  intro h
  obtain ⟨s, hpath, hs⟩ := lowercaseQueueSystem.exists_path emptyQueue
      (fun s => hasAgentOwnedJob s.db "job" "stranger" && s.log =
        [.claimed "job", .handed "job" "agent"])
    anyStep_of_true
      [.enqueue 0 anyAgentJob 0, .claimRowById {} 1 "job" (some "agent"), .markCompleted "job"]
      (by decide)
  rw [Bool.and_eq_true] at hs
  have hlog := of_decide_eq_true hs.2
  have hhanded := (h s ⟨_, emptyQueue_mem_init _ _, hpath⟩ "stranger" "job" hs.1).1
  simp [QueueState.WasHanded, hlog] at hhanded

end Kici
