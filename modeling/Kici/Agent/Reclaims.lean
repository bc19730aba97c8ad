import Kici.Agent.Recovery
import Kici.Queue.Terminal

/-!
# Reclaims and failures

`reconcileRecovery` decides by what the coordinator keeps, and does not look whether its statement
has changed the row: another coordinator may have failed the job, and the agent gets it all the
same. A sweep that fails a job forgets that it recovers, but not that its agent has it, so that the
agent still counts as its owner (`exists_reclaimed_failed`).

If the row still recovers when the statement of a reclaim runs, and is not moved on before the call
returns, then the job is dispatched to the agent; and a coordinator that has dealt with the failure
of an agent's job does not report the agent as its owner, if the agent does not have the job when it
deals with it, and the job is not kept as one that recovers again (`ReclaimsRecovering`,
`reclaimed_dispatched_and_not_owned`).
-/

namespace Kici

open Function List Option Bool JobQueue RecoveryState System

variable {κ : Type*}

/-- The coordinator does not keep the agent as the owner of the job, unless the agent has completed
it. -/
structure RecoveryMemory.Quit (m : RecoveryMemory) (agentId jobId : String) : Prop where
  agentJobs : jobId ∉ m.agentJobs agentId
  recoveringJobs : ∀ entry ∈ m.recoveringJobs jobId, entry.agentId ≠ agentId

/-- What a call deals with when it goes on after the statement that may have failed jobs. -/
def RecoveryCall.dealsWith : RecoveryCall κ → List (ProcessedFailure κ)
  | .recoveryExpired c agentId jobId => [⟨c, agentId, jobId⟩]
  | .recoveriesSwept c rows => rows.map (recoveryOf c)
  | _ => []

/-- The job that a call is to give back. -/
def RecoveryCall.restores : RecoveryCall κ → Option String
  | .restoreJobForAgent _ _ jobId => some jobId
  | _ => none

/-- The jobs that a call keeps as recovering, of agents. -/
def RecoveryCall.keeps : RecoveryCall κ → List (ProcessedFailure κ)
  | .setRecovering c agentId jobId => [⟨c, agentId, jobId⟩]
  | .recoverState c rows => rows.map (recoveryOf c)
  | _ => []

/-- Jobs are claimed back while they recover, and a failure that a coordinator has dealt with stays
so. -/
structure ReclaimsRecovering {κ : Type*} (s : RecoveryState κ) (a : RecoveryAction κ) : Prop where
  /-- The job still recovers, or is dispatched to the agent already. -/
  reclaimed : ∀ k now c agentId jobId, a = .next k now →
    s.calls[k]? = some (.reconcileRecovery c agentId jobId) →
    s.isRecovering jobId = true ∨ s.isDispatchedTo agentId jobId = true
  /-- The row of a job that was claimed back is not moved on before the call returns. -/
  returned : ∀ k now c agentId jobId, a = .next k now → .restoreJobForAgent c agentId jobId ∈ s.calls →
    (∀ c' agentId' deadline, s.calls[k]? ≠ some (.markRecovering c' agentId' jobId deadline)) ∧
      s.calls[k]? ≠ some (.markCompleted jobId)
  /-- The agent does not have the job on the coordinator that deals with its failure. -/
  untracked : ∀ k now call p, a = .next k now → s.calls[k]? = some call → p ∈ call.dealsWith →
    s.isFailed p.jobId = true → p.jobId ∉ (s.memory p.coordinator).agentJobs p.agentId
  /-- The job was not kept as recovering again before its timer has dealt with it. -/
  expired : ∀ k now c agentId jobId, a = .next k now →
    s.calls[k]? = some (.recoveryExpired c agentId jobId) →
    s.isFailed jobId = true → ∀ entry ∈ (s.memory c).recoveringJobs jobId, entry.agentId ≠ agentId
  /-- No job is kept as recovering whose failure the coordinator has dealt with. -/
  kept : ∀ k now call p, a = .next k now → s.calls[k]? = some call → p ∈ call.keeps → p ∉ s.processed

namespace RecoveryMemory

variable {m : RecoveryMemory} {now : ℕ} {agentId jobId other otherAgent : String}

section

variable (h : m.Quit agentId jobId)
include h

theorem Quit.isJobOwnedByAgent :
    m.isJobOwnedByAgent now agentId jobId = m.inGraceWindow now agentId jobId := by
  have hrecovering : (m.recoveringJobs jobId).any (·.agentId = agentId) = false := by
    rw [Option.any_eq_false]
    exact fun entry hentry => decide_eq_false (h.recoveringJobs entry hentry)
  simp [RecoveryMemory.isJobOwnedByAgent, h.agentJobs, hrecovering]

theorem Quit.untrackJob : (m.untrackJob otherAgent other).Quit agentId jobId where
  agentJobs hmem := by
    simp only [RecoveryMemory.untrackJob, update_apply] at hmem
    split at hmem
    · next hsame => exact h.agentJobs (hsame ▸ (mem_filter.1 hmem).1)
    · exact h.agentJobs hmem
  recoveringJobs := h.recoveringJobs

theorem Quit.setRecovering {next : Option RecoveringJob}
    (hnext : other = jobId → ∀ entry ∈ next, entry.agentId ≠ agentId) :
    (m.setRecovering other next).Quit agentId jobId where
  agentJobs := h.agentJobs
  recoveringJobs entry hentry := by
    simp only [RecoveryMemory.setRecovering, update_apply] at hentry
    split at hentry
    · next hsame => exact hnext hsame.symm entry hentry
    · exact h.recoveringJobs entry hentry

theorem Quit.dropRecovering : (m.setRecovering other none).Quit agentId jobId := by
  refine h.setRecovering fun _ entry hentry => ?_
  cases hentry

theorem Quit.trackJobForAgent (hne : other ≠ jobId) :
    (m.trackJobForAgent otherAgent other).Quit agentId jobId where
  agentJobs hmem := by
    simp only [RecoveryMemory.trackJobForAgent, update_apply] at hmem
    split at hmem
    · next hsame =>
      split at hmem
      · exact h.agentJobs (hsame ▸ hmem)
      · rcases mem_append.1 hmem with hold | hnew
        · exact h.agentJobs (hsame ▸ hold)
        · exact hne (mem_singleton.1 hnew).symm
    · exact h.agentJobs hmem
  recoveringJobs := h.recoveringJobs

end

end RecoveryMemory

namespace RecoveryState

variable {κ : Type*} {queue : κ → JobQueue} {s t : RecoveryState κ} {a : RecoveryAction κ} {c : κ}
  {agentId jobId : String} {u : DispatchUpdate} {m : RecoveryMemory} {now : ℕ} {call : RecoveryCall κ}
  {row : DispatchRow} {rows : List DispatchRow} {k : ℕ}

/-- The agents that were told to have a job again have it, and the failures that coordinators have
dealt with are so. -/
structure Exclusive (s : RecoveryState κ) : Prop where
  restoring : ∀ c agentId jobId, .restoreJobForAgent c agentId jobId ∈ s.calls →
    s.isDispatchedTo agentId jobId = true
  reclaimed : ∀ e ∈ s.reclaimed, e.dispatched = true
  processed : ∀ p ∈ s.processed, s.isFailed p.jobId = true ∧
    (s.memory p.coordinator).Quit p.agentId p.jobId

/-! ## Rows -/

theorem isFailed_write (hu : u.Guarded) (h : s.isFailed jobId) : (s.write u).isFailed jobId := by
  obtain ⟨r, hr, hfailed⟩ := (any_eq_true _ _).1 h
  have hterminal : r.Terminal := .inr (.inl (of_decide_eq_true hfailed))
  rw [isFailed, write, Db.row?_update hr, hu.apply hterminal]
  exact hfailed

theorem isDispatchedTo_write (hu : ∀ r : DispatchRow, r.id = jobId → r.status = .dispatched →
    u.guard r = false)
    (h : s.isDispatchedTo agentId jobId) : (s.write u).isDispatchedTo agentId jobId := by
  obtain ⟨r, hr, hdispatched⟩ := (any_eq_true _ _).1 h
  have hguard := hu r (Table.lookup_eq_some.1 hr).2 (of_decide_eq_true hdispatched).1
  rw [isDispatchedTo, write, Db.row?_update hr, Update.apply_of_not_guard hguard]
  exact hdispatched

theorem not_isFailed_of_isDispatchedTo (h : s.isDispatchedTo agentId jobId) :
    s.isFailed jobId = false := by
  obtain ⟨r, hr, hdispatched⟩ := (any_eq_true _ _).1 h
  simp [isFailed, hr, (of_decide_eq_true hdispatched).1]

/-- A job that is claimed back while it recovers is dispatched to its agent. -/
theorem isDispatchedTo_markDispatchedIfRecovering {q : JobQueue}
    (h : s.isRecovering jobId ∨ s.isDispatchedTo agentId jobId) :
    (s.write (q.markDispatchedIfRecovering now jobId agentId)).isDispatchedTo agentId jobId := by
  rcases h with hrecovering | hdispatched
  · obtain ⟨r, hr, hstatus⟩ := (any_eq_true _ _).1 hrecovering
    have hguard : (q.markDispatchedIfRecovering now jobId agentId).guard r :=
      decide_eq_true ⟨(Table.lookup_eq_some.1 hr).2, of_decide_eq_true hstatus⟩
    rw [isDispatchedTo, write, Db.row?_update hr, Update.apply_of_guard hguard]
    simp [markDispatchedIfRecovering]
  · refine isDispatchedTo_write (fun r _ hstatus => ?_) hdispatched
    simp [markDispatchedIfRecovering, hstatus]

/-- A statement that leaves failed rows, and those of jobs that were claimed back. -/
theorem Exclusive.write (h : s.Exclusive) (hu : u.Guarded)
    (hrestoring : ∀ c agentId jobId, .restoreJobForAgent c agentId jobId ∈ s.calls →
      ∀ r : DispatchRow, r.id = jobId → r.status = .dispatched → u.guard r = false) :
      (s.write u).Exclusive where
  restoring c agentId jobId hmem := isDispatchedTo_write (hrestoring c agentId jobId hmem)
    (h.restoring c agentId jobId hmem)
  reclaimed := h.reclaimed
  processed p hp := ⟨isFailed_write hu (h.processed p hp).1, (h.processed p hp).2⟩

/-- The timers do not matter. -/
theorem Exclusive.of_timers (h : s.Exclusive) (timers : List (RecoveryTimer κ)) (nextTimer : ℕ) :
    Exclusive { s with timers, nextTimer } :=
  ⟨h.restoring, h.reclaimed, h.processed⟩

theorem Exclusive.addCall (h : s.Exclusive) (hcall : call.restores = none) :
    (s.addCall call).Exclusive where
  restoring c agentId jobId hmem := by
    rcases mem_append.1 hmem with hold | hnew
    · exact h.restoring c agentId jobId hold
    · rw [← mem_singleton.1 hnew] at hcall
      cases hcall
  reclaimed := h.reclaimed
  processed := h.processed

/-- A call goes on; if it is to restore a job, the job is dispatched to its agent. -/
theorem Exclusive.replace (h : t.Exclusive) {next : Option (RecoveryCall κ)}
    (hnext : ∀ c agentId jobId, .restoreJobForAgent c agentId jobId ∈ next →
      t.isDispatchedTo agentId jobId) :
    Exclusive { t with calls := t.calls.take k ++ next.toList ++ t.calls.drop (k + 1) } where
  restoring c agentId jobId hmem := by
    rcases mem_or_mem_of_replaced hmem with hold | hnew
    · exact h.restoring c agentId jobId hold
    · exact hnext c agentId jobId (mem_toList.1 hnew)
  reclaimed := h.reclaimed
  processed := h.processed

/-- A call is over. -/
theorem Exclusive.finish (h : t.Exclusive) :
    Exclusive { t with
      calls := t.calls.take k ++ (none : Option (RecoveryCall κ)).toList ++ t.calls.drop (k + 1) } :=
  h.replace fun _ _ _ hnext => by cases hnext

/-- A call goes on, with no job to restore. -/
theorem Exclusive.goOn (h : t.Exclusive) (hcall : call.restores = none) :
    Exclusive { t with calls := t.calls.take k ++ (some call).toList ++ t.calls.drop (k + 1) } := by
  refine h.replace fun c agentId jobId hnext => ?_
  rw [mem_some.1 hnext] at hcall
  cases hcall

/-- A coordinator deals with jobs, whose agents it does not keep. -/
theorem Exclusive.process (h : s.Exclusive) {failures : List (ProcessedFailure κ)}
    (hquit : ∀ p ∈ failures, s.isFailed p.jobId → (s.memory p.coordinator).Quit p.agentId p.jobId) :
    (s.process failures).Exclusive where
  restoring := h.restoring
  reclaimed := h.reclaimed
  processed p hp := by
    rcases mem_append.1 hp with hold | hnew
    · exact h.processed p hold
    · obtain ⟨hmem, hfailed⟩ := mem_filter.1 hnew
      exact ⟨hfailed, hquit p hmem hfailed⟩

variable [DecidableEq κ]

/-! ## Memory -/

theorem Exclusive.setMemory (h : s.Exclusive)
    (hm : ∀ p ∈ s.processed, p.coordinator = c → (s.memory c).Quit p.agentId p.jobId →
      m.Quit p.agentId p.jobId) :
    (s.setMemory c m).Exclusive where
  restoring := h.restoring
  reclaimed := h.reclaimed
  processed p hp := by
    obtain ⟨hfailed, hquit⟩ := h.processed p hp
    refine ⟨hfailed, ?_⟩
    simp only [RecoveryState.setMemory, update_apply]
    split
    · next hsame => exact hm p hp hsame (hsame ▸ hquit)
    · exact hquit

theorem Exclusive.setRecovering (h : s.Exclusive) (hnot : ⟨c, agentId, jobId⟩ ∉ s.processed) :
    (s.setRecovering c agentId jobId).Exclusive := by
  have hset : (s.setMemory c
    ((s.memory c).setRecovering jobId (some ⟨agentId, s.nextTimer⟩))).Exclusive := by
    refine h.setMemory fun p hp hcoordinator hquit =>
      hquit.setRecovering fun hjob entry hentry hagent => hnot ?_
    obtain rfl := mem_some.1 hentry
    obtain ⟨coordinator, agent, job⟩ := p
    subst hcoordinator hjob hagent
    exact hp
  exact hset.of_timers _ _

/-! ## Sweeps -/

/-- What a sweep that has run leaves of what is kept: nothing recovers that it has selected. -/
structure Drops (c : κ) (jobIds : List String) (s t : RecoveryState κ) : Prop where
  calls : t.calls = s.calls
  agentJobs : (t.memory c).agentJobs = (s.memory c).agentJobs
  recoveringJobs : ∀ jobId, (t.memory c).recoveringJobs jobId =
    if jobId ∈ jobIds then none else (s.memory c).recoveringJobs jobId
  isFailed : ∀ jobId, t.isFailed jobId = s.isFailed jobId

theorem drops_dropRecovering (c : κ) (s : RecoveryState κ) (row : DispatchRow) :
    Drops c [row.id] s (s.dropRecovering c row) := by
  unfold dropRecovering
  split
  · refine ⟨rfl, ?_, fun jobId => ?_, fun _ => rfl⟩
    · simp [setMemory, RecoveryMemory.setRecovering]
    · simp [setMemory, RecoveryMemory.setRecovering, update_apply]
  · next hnone =>
    refine ⟨rfl, rfl, fun jobId => ?_, fun _ => rfl⟩
    split
    · next hmem =>
      obtain rfl := mem_singleton.1 hmem
      exact hnone
    · rfl

theorem drops_foldl :
    Drops c (rows.map DispatchRow.id) s (rows.foldl (·.dropRecovering c ·) s) := by
  induction rows generalizing s with
  | nil => exact ⟨rfl, rfl, fun _ => rfl, fun _ => rfl⟩
  | cons row rows ih =>
    have hhead := drops_dropRecovering c s row
    have htail := ih (s := s.dropRecovering c row)
    refine ⟨htail.calls.trans hhead.calls, htail.agentJobs.trans hhead.agentJobs, fun jobId => ?_,
      fun jobId => (htail.isFailed jobId).trans (hhead.isFailed jobId)⟩
    rw [foldl_cons, htail.recoveringJobs, hhead.recoveringJobs, map_cons]
    by_cases hrest : jobId ∈ rows.map DispatchRow.id <;> by_cases hrow :
      jobId = row.id <;> simp [hrest, hrow]

theorem Exclusive.dropRecovering (h : s.Exclusive) : (s.dropRecovering c row).Exclusive := by
  unfold RecoveryState.dropRecovering
  split
  · next entry _ =>
    have hcleared : (s.clearTimer entry.timer).Exclusive := h.of_timers _ _
    exact hcleared.setMemory fun _ _ _ hquit => hquit.dropRecovering
  · exact h

theorem Exclusive.foldl_dropRecovering (h : s.Exclusive) :
    (rows.foldl (·.dropRecovering c ·) s).Exclusive := by
  induction rows generalizing s with
  | nil => exact h
  | cons row rows ih => exact ih h.dropRecovering

theorem processed_rehydrate : (s.rehydrate c now row).processed = s.processed := by
  unfold rehydrate
  split
  · split <;> rfl
  · rfl

theorem calls_rehydrate : (s.rehydrate c now row).calls = s.calls := by
  unfold rehydrate
  split
  · split <;> rfl
  · rfl

theorem Exclusive.rehydrate (h : s.Exclusive) (now : ℕ) (hnot : recoveryOf c row ∉ s.processed) :
    (s.rehydrate c now row).Exclusive := by
  unfold RecoveryState.rehydrate
  split
  · next agentId deadline hagent hdeadline =>
    split
    · refine h.setRecovering ?_
      rwa [recoveryOf, hagent, getD_some] at hnot
    · exact h
  · exact h

theorem Exclusive.foldl_rehydrate (h : s.Exclusive)
    (hnot : ∀ row ∈ rows, recoveryOf c row ∉ s.processed) :
    (rows.foldl (·.rehydrate c now ·) s).Exclusive ∧
    (rows.foldl (·.rehydrate c now ·) s).calls = s.calls := by
  induction rows generalizing s with
  | nil => exact ⟨h, rfl⟩
  | cons row rows ih =>
    obtain ⟨hexclusive, hcalls⟩ := ih (h.rehydrate now (hnot row mem_cons_self)) fun row' hmem => by
      rw [processed_rehydrate]
      exact hnot row' (mem_cons_of_mem _ hmem)
    exact ⟨hexclusive, hcalls.trans calls_rehydrate⟩

/-! ## Steps -/

/-- A call that runs its statement or goes on keeps the invariant. -/
theorem Exclusive.callNext (h : s.Exclusive) (hok : ReclaimsRecovering s (.next k now))
    (hcall : s.calls[k]? = some call) :
    Exclusive { (s.callNext queue now call).1 with
      calls := (s.callNext queue now call).1.calls.take k ++ (s.callNext queue now call).2.toList ++
        (s.callNext queue now call).1.calls.drop (k + 1) } := by
  cases call with
  | markRecovering c agentId jobId deadline =>
    refine (h.write guarded_markRecovering fun c' agentId' jobId' hmem r hid _ => ?_).goOn rfl
    have hreturned := (hok.returned k now c' agentId' jobId' rfl hmem).1 c agentId deadline
    have hne : r.id ≠ jobId := by
      rintro rfl
      exact hreturned (hid ▸ hcall)
    simp [markRecovering, hne]
  | setRecovering c agentId jobId =>
    exact (h.setRecovering (hok.kept k now _ _ rfl hcall (mem_singleton_self _))).finish
  | reconcileRecovery c agentId jobId =>
    refine (h.write guarded_markDispatchedIfRecovering fun _ _ _ _ r _ hstatus => ?_).replace ?_
    · simp [markDispatchedIfRecovering, hstatus]
    · rintro c' agentId' jobId' hnext
      cases hnext
      exact isDispatchedTo_markDispatchedIfRecovering (hok.reclaimed k now c agentId jobId rfl hcall)
  | restoreJobForAgent c agentId jobId =>
    have hdispatched := h.restoring c agentId jobId (mem_of_getElem? hcall)
    have hrestored : (s.setMemory c ((s.memory c).trackJobForAgent agentId jobId)).Exclusive := by
      refine h.setMemory fun p hp _ hquit => hquit.trackJobForAgent ?_
      rintro rfl
      have hfailed := (h.processed p hp).1
      rw [not_isFailed_of_isDispatchedTo hdispatched] at hfailed
      cases hfailed
    refine Exclusive.finish (t := { s.setMemory c ((s.memory c).trackJobForAgent agentId jobId) with
      reclaimed := s.reclaimed ++ [⟨agentId, jobId, s.isDispatchedTo agentId jobId⟩] })
      ⟨hrestored.restoring, fun e he => ?_, hrestored.processed⟩
    rcases mem_append.1 he with hold | hnew
    · exact h.reclaimed e hold
    · obtain rfl := mem_singleton.1 hnew
      exact hdispatched
  | handleRecoveryExpiry c agentId jobId =>
    refine (h.write guarded_markFailedIfRecovering fun _ _ _ _ r _ hstatus => ?_).goOn rfl
    simp [markFailedIfRecovering, hstatus]
  | recoveryExpired c agentId jobId =>
    refine (h.process fun p hmem hfailed => ?_).finish
    obtain rfl := mem_singleton.1 hmem
    exact {
      agentJobs := hok.untracked k now _ _ rfl hcall (mem_singleton_self _) hfailed
      recoveringJobs := hok.expired k now c agentId jobId rfl hcall hfailed }
  | sweepExpiredRecoveries c rows =>
    refine (h.write guarded_sweepExpiredRecoveriesUpdate fun _ _ _ _ r _ hstatus => ?_).goOn rfl
    simp [sweepExpiredRecoveriesUpdate, hstatus]
  | recoveriesSwept c rows =>
    have hdrops : Drops c (rows.map DispatchRow.id) s _ := drops_foldl
    refine (h.foldl_dropRecovering.process fun p hmem hfailed => ?_).finish
    rw [hdrops.isFailed] at hfailed
    have huntracked := hok.untracked k now _ p rfl hcall hmem hfailed
    obtain ⟨row, hrow, rfl⟩ := mem_map.1 hmem
    refine ⟨?_, ?_⟩
    · change _ ∉ (memory _ c).agentJobs _
      rw [hdrops.agentJobs]
      exact huntracked
    · change ∀ entry ∈ (memory _ c).recoveringJobs row.id, _
      rw [hdrops.recoveringJobs, if_pos (mem_map_of_mem hrow)]
      intro entry hentry
      cases hentry
  | recoverState c rows =>
    refine (h.foldl_rehydrate fun row hmem => ?_).1.finish
    exact hok.kept k now _ _ rfl hcall (mem_map_of_mem hmem)
  | markCompleted jobId =>
    refine (h.write guarded_markCompleted fun c' agentId' jobId' hmem r hid _ => ?_).finish
    have hreturned := (hok.returned k now c' agentId' jobId' rfl hmem).2
    have hne : r.id ≠ jobId := by
      rintro rfl
      exact hreturned (hid ▸ hcall)
    simp [markCompleted, hne]

theorem Exclusive.claimRecovery (h : s.Exclusive) (ht : s.claimRecovery c agentId jobId = some t) :
    t.Exclusive := by
  unfold RecoveryState.claimRecovery at ht
  split at ht
  · next entry _ =>
    obtain ⟨-, heq⟩ := ite_none_right_eq_some.1 ht
    cases heq
    have hcleared : (s.clearTimer entry.timer).Exclusive := h.of_timers _ _
    exact hcleared.setMemory fun _ _ _ hquit => hquit.dropRecovering
  · cases ht

theorem Exclusive.handleRecoveryExpiry (h : s.Exclusive) :
    (s.handleRecoveryExpiry c agentId jobId).Exclusive :=
  (h.setMemory fun _ _ _ hquit => hquit.dropRecovering.untrackJob).addCall rfl

/-- A coordinator that starts anew has dealt with nothing, and keeps nothing. -/
theorem Exclusive.restart (h : s.Exclusive) : (s.restart c).Exclusive where
  restoring c' agentId jobId hmem := h.restoring c' agentId jobId (mem_filter.1 hmem).1
  reclaimed := h.reclaimed
  processed p hp := by
    obtain ⟨hp, hne⟩ := mem_filter.1 hp
    have hmemory : (s.restart c).memory p.coordinator = s.memory p.coordinator :=
      update_of_ne (of_decide_eq_true hne) ..
    rw [hmemory]
    exact h.processed p hp

theorem Exclusive.step (h : s.Exclusive) (hok : ReclaimsRecovering s a)
    (hstep : (recoverySystem queue).step s a = some t) : t.Exclusive := by
  cases a with
  | startRecovery c agentId jobId deadline =>
    obtain ⟨-, heq⟩ := ite_none_right_eq_some.1 hstep
    cases heq
    exact h.addCall rfl
  | reconcileRecovery c agentId jobId =>
    cases hstep
    unfold reconcileRecovery
    split
    · next t ht => exact (h.claimRecovery ht).addCall rfl
    · exact h
  | timer k =>
    obtain ⟨timer, -, rfl⟩ := map_eq_some_iff.1 hstep
    exact (h.of_timers (s.timers.eraseIdx k) s.nextTimer).handleRecoveryExpiry
  | sweepExpiredRecoveries | recoverState =>
    cases hstep
    exact h.addCall rfl
  | onJobComplete c agentId jobId now =>
    cases hstep
    refine (h.setMemory fun p _ _ hquit => ?_).addCall rfl
    have huntracked : ((s.memory c).untrackJob agentId jobId).Quit p.agentId p.jobId := hquit.untrackJob
    exact ⟨huntracked.agentJobs, hquit.recoveringJobs⟩
  | forgetCompleted c jobId =>
    cases hstep
    exact h.setMemory fun _ _ _ hquit => ⟨hquit.agentJobs, hquit.recoveringJobs⟩
  | next k now =>
    obtain ⟨call, hcall, rfl⟩ := map_eq_some_iff.1 hstep
    exact h.callNext hok hcall
  | throws k =>
    obtain ⟨call, -, rfl⟩ := map_eq_some_iff.1 hstep
    exact h.finish
  | restart c =>
    cases hstep
    exact h.restart

end RecoveryState

/-- While jobs are claimed back only as they recover, and failures that were dealt with stay so:
what `reconcileRecovery` has returned `true` for was dispatched to the agent then, and no
coordinator that has dealt with the failure of an agent's job reports the agent as its owner, unless
it has completed the job within the grace time. -/
theorem reclaimed_dispatched_and_not_owned {κ : Type*} [DecidableEq κ] {queue : κ → JobQueue}
    {s : RecoveryState κ} (h : (recoverySystem queue).Reachable ReclaimsRecovering s) :
    (∀ e ∈ s.reclaimed, e.dispatched) ∧
      ∀ p ∈ s.processed, ∀ now, (s.memory p.coordinator).isJobOwnedByAgent now p.agentId p.jobId =
        (s.memory p.coordinator).inGraceWindow now p.agentId p.jobId := by
  have hexclusive : s.Exclusive := by
    refine h.invariant ?_ fun s a t hs hok hstep => hs.step hok hstep
    rintro s ⟨db, agentJobs, rfl⟩
    exact ⟨nofun, nofun, nofun⟩
  exact ⟨hexclusive.reclaimed, fun p hp now => (hexclusive.processed p hp).2.isJobOwnedByAgent⟩

/-- A test of `ReclaimsRecovering`. -/
def reclaimsRecoveringTest [DecidableEq κ] (s : RecoveryState κ) : RecoveryAction κ → Bool
  | .next k _ => (s.calls[k]?).all fun call =>
    (match call with
      | .reconcileRecovery _ agentId jobId => s.isRecovering jobId || s.isDispatchedTo agentId jobId
      | .markRecovering _ _ jobId _
      | .markCompleted jobId => s.calls.all fun other => other.restores ≠ some jobId
      | .recoveryExpired c agentId jobId =>
        !s.isFailed jobId || ((s.memory c).recoveringJobs jobId).all (·.agentId ≠ agentId)
      | _ => true) &&
    call.dealsWith.all
      (fun p => !s.isFailed p.jobId || p.jobId ∉ (s.memory p.coordinator).agentJobs p.agentId) &&
    call.keeps.all (· ∉ s.processed)
  | _ => true

theorem reclaimsRecovering_of_test [DecidableEq κ] (s : RecoveryState κ) (a : RecoveryAction κ)
    (h : reclaimsRecoveringTest s a) : ReclaimsRecovering s a := by
  refine ⟨?_, ?_, ?_, ?_, ?_⟩
  · rintro k now c agentId jobId rfl hcall
    simpa [reclaimsRecoveringTest, hcall, RecoveryCall.dealsWith, RecoveryCall.keeps] using h
  · rintro k now c agentId jobId rfl hmem
    refine ⟨fun c' agentId' deadline hcall => ?_, fun hcall => ?_⟩ <;>
    · simp only [reclaimsRecoveringTest, hcall, all_some, and_eq_true, List.all_eq_true] at h
      simpa [RecoveryCall.restores] using h.1.1 _ hmem
  · rintro k now call p rfl hcall hmem hfailed
    simp only [reclaimsRecoveringTest, hcall, all_some, and_eq_true, List.all_eq_true] at h
    simpa [hfailed] using h.1.2 p hmem
  · rintro k now c agentId jobId rfl hcall hfailed
    simp only [reclaimsRecoveringTest, hcall, all_some, and_eq_true] at h
    simpa [hfailed, Option.all_eq_true] using h.1.1
  · rintro k now call p rfl hcall hmem
    simp only [reclaimsRecoveringTest, hcall, all_some, and_eq_true, List.all_eq_true] at h
    exact of_decide_eq_true (h.2 p hmem)

/-- The job `build`, dispatched to the agent `builder`. -/
def dispatchedRow : DispatchRow where
  id := "build"
  runId := "run"
  jobName := "build"
  status := .dispatched
  createdAt := 0
  agentId := some "builder"

/-- Two coordinators, the first of which has handed `build` to `builder`. -/
def dispatchedBuild : RecoveryState Bool where
  db := {
    dispatchQueue := Table.singleton DispatchRow.id dispatchedRow
    executionRuns := []
    clusterInstances := []
    now := 0 }
  memory := fun c =>
    { agentJobs := fun agentId => if c = false ∧ agentId = "builder" then ["build"] else [] }

theorem dispatchedBuild_mem_init (queue : Bool → JobQueue) :
    dispatchedBuild ∈ (recoverySystem queue).init :=
  ⟨_, fun c agentId => if c = false ∧ agentId = "builder" then ["build"] else [], rfl⟩

/-- An agent disconnects and comes back for its job, then disconnects for good. -/
theorem reclaimed_dispatched_and_not_owned_expired : ∃ s : RecoveryState Bool,
    (recoverySystem fun _ => {}).Reachable ReclaimsRecovering s ∧ s.reclaimed.length = 1 ∧
    s.processed.length = 1 ∧ (∀ e ∈ s.reclaimed, e.dispatched) ∧
      ∀ p ∈ s.processed, ∀ now, (s.memory p.coordinator).isJobOwnedByAgent now p.agentId p.jobId =
        (s.memory p.coordinator).inGraceWindow now p.agentId p.jobId := by
  obtain ⟨s, hpath, hs⟩ := (recoverySystem fun _ => {}).exists_path dispatchedBuild
      (fun s => s.reclaimed.length = 1 ∧ s.processed.length = 1) reclaimsRecovering_of_test [
      .startRecovery false "builder" "build" 9,
      .next 0 1,
      .next 0 1,
      .reconcileRecovery false "builder" "build",
      .next 0 2,
      .next 0 2,
      .startRecovery false "builder" "build" 9,
      .next 0 3,
      .next 0 3,
      .timer 0,
      .next 0 10,
      .next 0 10] (by decide)
  have h : (recoverySystem fun _ => {}).Reachable ReclaimsRecovering s :=
    ⟨_, dispatchedBuild_mem_init _, hpath⟩
  obtain ⟨hreclaimed, hprocessed⟩ := hs
  exact ⟨s, h, hreclaimed, hprocessed, reclaimed_dispatched_and_not_owned h⟩

/-- A run in which a coordinator fails a job that another gives back to its agent, and one in which
a coordinator that has swept a job still reports its agent as the owner. -/
theorem exists_reclaimed_failed :
    (∃ s : RecoveryState Bool, (recoverySystem fun _ => {}).Reachable anyStep s ∧
      ∃ e ∈ s.reclaimed, e.dispatched = false) ∧
    ∃ s : RecoveryState Bool, (recoverySystem fun _ => {}).Reachable anyStep s ∧
      ∃ p ∈ s.processed, ∃ now, (s.memory p.coordinator).isJobOwnedByAgent now p.agentId p.jobId ∧
        (s.memory p.coordinator).inGraceWindow now p.agentId p.jobId = false := by
  constructor
  · obtain ⟨s, hpath, hs⟩ : ∃ s, (recoverySystem fun _ => {}).Path anyStep dispatchedBuild s ∧
        (s.reclaimed.any fun e => !e.dispatched) :=
      exists_path_of_run anyStep_of_true [
        .startRecovery false "builder" "build" 9,
        .next 0 1,
        .next 0 1,
        .reconcileRecovery false "builder" "build",
        .sweepExpiredRecoveries true 10,
        .next 1 10,
        .next 0 10,
        .next 0 10] (by decide)
    obtain ⟨e, he, hnot⟩ := any_eq_true.1 hs
    exact ⟨s, ⟨_, dispatchedBuild_mem_init _, hpath⟩, e, he, not_eq_true' _ ▸ hnot⟩
  · obtain ⟨s, hpath, hs⟩ : ∃ s, (recoverySystem fun _ => {}).Path anyStep dispatchedBuild s ∧
        (s.processed.any fun p => (s.memory p.coordinator).isJobOwnedByAgent 10 p.agentId p.jobId &&
          !(s.memory p.coordinator).inGraceWindow 10 p.agentId p.jobId) :=
      exists_path_of_run anyStep_of_true [
        .startRecovery false "builder" "build" 9,
        .next 0 1,
        .next 0 1,
        .sweepExpiredRecoveries false 10,
        .next 0 10,
        .next 0 10] (by decide)
    obtain ⟨p, hp, howned⟩ := any_eq_true.1 hs
    obtain ⟨howned, hgrace⟩ := and_eq_true_iff.1 howned
    exact ⟨s, ⟨_, dispatchedBuild_mem_init _, hpath⟩, p, hp, 10, howned, not_eq_true' _ ▸ hgrace⟩

end Kici
