import Kici.Queue.QueueSystem

/-!
# What a sweep reports

`markExpired` and `sweepExpiredRecoveries` first select rows, then update them, and
return what they selected. Between the two statements another sweep may end the
same rows, and an agent may claim them or get them back; the update of
`markExpired` does not even look.

A call that finds its rows as it selected them (`QueueState.SweepSafe`) reports
exactly what it ended. In a run of sweeps, claims and reclaims whose sweeps all do,
no row is reported twice, and none that an agent got (`sweeps_exact`). Else both may
happen (`exists_swept_twice`).
-/

namespace Kici

open List Option JobQueue Table QueueState Db

variable {u : DispatchUpdate} {status : DispatchQueueStatus}

/-- The status of a job's row. -/
def Db.status? (db : Db) (jobId : String) : Option DispatchQueueStatus :=
  (db.row? jobId).map DispatchRow.status

theorem Db.status?_eq_some {db : Db} {jobId : String} :
    db.status? jobId = some status ↔
      ∃ r ∈ db.dispatchQueue, r.id = jobId ∧ r.status = status := by
  simp [status?, row?, lookup_eq_some, and_assoc]

/-- An update that leaves the rows of a status leaves a job in that status. -/
theorem Db.status?_update {db : Db} {jobId : String}
    (h : db.status? jobId = some status)
    (hu : ∀ r ∈ db.dispatchQueue, r.id = jobId → r.status = status → u.guard r →
      (u.set r).status = status) : (db.update u).status? jobId = some status := by
  obtain ⟨r, hr, hstatus⟩ := map_eq_some_iff.1 h
  obtain ⟨hmem, hid⟩ := lookup_eq_some.1 hr
  rw [status?, row?, update, lookup_execute, ← row?, hr]
  by_cases hg : u.guard r
  · simp [Update.apply_of_guard hg, hu r hmem hid hstatus hg]
  · simp [Update.apply_of_not_guard (Bool.eq_false_iff.2 hg), hstatus]

/-- The jobs an update changes get the status it sets. -/
theorem Db.status?_update_of_returning {db : Db} {r : DispatchRow}
    (h : r ∈ db.dispatchQueue.returning u) : (db.update u).status? r.id = some r.status := by
  obtain ⟨r₀, hr₀, hg, rfl⟩ := mem_returning.1 h
  have hlookup := lookup_execute_of_guard (lookup_of_mem hr₀) hg
  rw [status?, row?, update, u.key_set, hlookup, map_some]

/-- What a sweep returned. -/
def QueueEvent.returned? : QueueEvent → Option (List String)
  | swept returned _ => some returned
  | _ => none

namespace QueueState

/-- The steps of claims, reclaims and sweeps, in which a sweep finds the rows it
selected in the status it selected them in. -/
def SweepSafe (s : QueueState) : QueueAction → Prop
  | .claimPatternFree .. | .claimRowById .. | .markDispatched .. | .reconcileRecovery .. => True
  | .markExpiredSelect _ | .sweepExpiredRecoveriesSelect _ => True
  | .markExpiredUpdate k => ∀ rows, s.calls[k]? = some (.markExpired rows) →
      ∀ jobId ∈ rows.map DispatchRow.id, s.db.status? jobId = some .pending
  | .sweepExpiredRecoveriesUpdate k => ∀ rows, s.calls[k]? = some (.sweepExpiredRecoveries rows) →
      ∀ jobId ∈ rows.map DispatchRow.id, s.db.status? jobId = some .recovering
  | _ => False

/-- What the finished calls returned, in order. -/
def reports (s : QueueState) : List (List String) := s.log.filterMap QueueEvent.returned?

/-- Each call returned exactly the rows it moved, no row was returned by two calls,
and none that was claimed or reclaimed. -/
structure SweepsExact (s : QueueState) : Prop where
  moved : ∀ returned moved, .swept returned moved ∈ s.log → ∀ j, j ∈ returned ↔ j ∈ moved
  once : s.reports.Pairwise List.Disjoint
  notClaimed : ∀ returned moved, .swept returned moved ∈ s.log → ∀ j ∈ returned,
    .claimed j ∉ s.log ∧ ∀ agentId, .reclaimed j agentId ∉ s.log

/-- What an event says of jobs is still so: who was claimed or reclaimed is
dispatched, and what was swept is over. -/
def Current (s : QueueState) : QueueEvent → Prop
  | .claimed j => s.db.status? j = some .dispatched
  | .handed _ _ => True
  | .reclaimed j _ => s.db.status? j = some .dispatched
  | .swept returned _ => ∀ j ∈ returned,
      s.db.status? j = some .failed ∨ s.db.status? j = some .expired

/-- The invariant of runs of sweeps, claims and reclaims. -/
structure SweepInv (s : QueueState) : Prop where
  dispatching : ∀ j agentId, .dispatching j agentId ∈ s.calls → s.db.status? j = some .dispatched
  current : ∀ e ∈ s.log, s.Current e
  moved : ∀ returned moved, .swept returned moved ∈ s.log → ∀ j, j ∈ returned ↔ j ∈ moved
  once : s.reports.Pairwise List.Disjoint

/-- The statuses such runs do not change. -/
def Settled (status : DispatchQueueStatus) : Prop :=
  status = .dispatched ∨ status = .failed ∨ status = .expired

variable {js : JsRuntime} {order : OrderBy DispatchRow.createdAt} {s t : QueueState}

theorem SweepInv.sweepsExact (hs : s.SweepInv) : s.SweepsExact where
  moved := hs.moved
  once := hs.once
  notClaimed returned moved hmem j hj := by
    -- A job that was swept is over, one that was claimed or reclaimed is dispatched.
    have hover := hs.current _ hmem j hj
    constructor
    · intro hclaimed
      rw [show s.db.status? j = _ from hs.current _ hclaimed] at hover
      simp at hover
    · intro agentId hreclaimed
      rw [show s.db.status? j = _ from hs.current _ hreclaimed] at hover
      simp at hover

/-- Events stay current while settled statuses stay. -/
theorem Current.mono {e : QueueEvent} (he : s.Current e)
    (hkeep : ∀ j status, Settled status → s.db.status? j = some status →
      t.db.status? j = some status) : t.Current e := by
  cases e with
  | claimed j => exact hkeep j _ (.inl rfl) he
  | handed j agentId => trivial
  | reclaimed j agentId => exact hkeep j _ (.inl rfl) he
  | swept returned moved =>
    intro j hj
    exact (he j hj).imp (hkeep j _ (.inr (.inl rfl))) (hkeep j _ (.inr (.inr rfl)))

/-- A safe step leaves settled statuses. -/
theorem SweepInv.status?_step (hs : s.SweepInv) {a : QueueAction} (ha : s.SweepSafe a)
    (hstep : s.step js order a = some t) {j : String}
    (hsettled : Settled status) (h : s.db.status? j = some status) :
    t.db.status? j = some status := by
  unfold step at hstep
  cases a with
  | claimPatternFree q now agent =>
    cases hstep
    refine status?_update h fun r _ _ hr hg => ?_
    simp only [claimPatternFree, decide_eq_true_eq] at hg
    rw [← hr, hg.2] at hsettled
    simp [Settled] at hsettled
  | claimRowById q now jobId agentId =>
    cases hstep
    refine status?_update h fun r _ _ hr hg => ?_
    simp only [claimRowById, decide_eq_true_eq] at hg
    rw [← hr, hg.2] at hsettled
    simp [Settled] at hsettled
  | markDispatched q now k =>
    simp only at hstep
    split at hstep
    · next jobId agentId hcall =>
      cases hstep
      -- The job is dispatched already.
      refine status?_update h fun r _ hid _ hg => ?_
      simp only [markDispatched, decide_eq_true_eq] at hg
      have hdispatched := hs.dispatching _ _ (mem_of_getElem? hcall)
      rw [← hg, hid, h] at hdispatched
      exact (some.inj hdispatched).symm
    · cases hstep
  | reconcileRecovery q now jobId agentId =>
    obtain ⟨-, ⟨⟩⟩ := ite_none_right_eq_some.1 hstep
    refine status?_update h fun r _ _ hr hg => ?_
    simp only [markDispatchedIfRecovering, decide_eq_true_eq] at hg
    rw [← hr, hg.2] at hsettled
    simp [Settled] at hsettled
  | markExpiredSelect | sweepExpiredRecoveriesSelect =>
    cases hstep
    exact h
  | markExpiredUpdate k =>
    simp only at hstep
    split at hstep
    · next rows hcall =>
      cases hstep
      refine status?_update h fun r _ hid _ hg => ?_
      simp only [markExpiredUpdate, decide_eq_true_eq] at hg
      have hpending := ha rows hcall r.id hg
      rw [hid, h] at hpending
      rw [some.inj hpending] at hsettled
      simp [Settled] at hsettled
    · cases hstep
  | sweepExpiredRecoveriesUpdate k =>
    simp only at hstep
    split at hstep
    · next rows hcall =>
      cases hstep
      refine status?_update h fun r _ hid _ hg => ?_
      simp only [sweepExpiredRecoveriesUpdate, decide_eq_true_eq] at hg
      have hrecovering := ha rows hcall r.id hg.1
      rw [hid, h] at hrecovering
      rw [some.inj hrecovering] at hsettled
      simp [Settled] at hsettled
    · cases hstep
  | _ => exact ha.elim

/-- The invariant after a step that ends no sweep, if what it adds to the calls and to
the log is current. -/
theorem SweepInv.extend (hs : s.SweepInv) {es : List QueueEvent}
    (hkeep : ∀ j status, Settled status → s.db.status? j = some status →
      t.db.status? j = some status)
    (hcalls : ∀ j agentId, .dispatching j agentId ∈ t.calls →
      .dispatching j agentId ∈ s.calls ∨ t.db.status? j = some .dispatched)
    (hlog : t.log = s.log ++ es) (hes : ∀ e ∈ es, t.Current e)
    (hnone : ∀ returned moved, .swept returned moved ∉ es) : t.SweepInv := by
  refine ⟨fun j agentId hcall => ?_, fun e he => ?_, fun returned moved hmem => ?_, ?_⟩
  · exact (hcalls j agentId hcall).elim (fun h => hkeep j _ (.inl rfl) (hs.dispatching j agentId h)) id
  · rw [hlog, mem_append] at he
    exact he.elim (fun he => (hs.current e he).mono hkeep) (hes e)
  · rw [hlog, mem_append] at hmem
    exact hmem.elim (hs.moved returned moved) fun h => absurd h (hnone returned moved)
  · have hreports : es.filterMap QueueEvent.returned? = [] := by
      refine filterMap_eq_nil_iff.2 fun e he => ?_
      cases e with
      | swept returned moved => exact absurd he (hnone returned moved)
      | _ => rfl
    rw [reports, hlog, filterMap_append, hreports, append_nil]
    exact hs.once

/-- The invariant after the update of a sweep, if it finds the rows in the status they
were selected in, and gives all of these its own. -/
theorem SweepInv.sweep (hs : s.SweepInv) {k : ℕ} {rows : List DispatchRow}
    {selected status : DispatchQueueStatus}
    (hkeep : ∀ j status, Settled status → s.db.status? j = some status →
      (s.db.update u).status? j = some status)
    (hrows : ∀ j ∈ rows.map DispatchRow.id, s.db.status? j = some selected)
    (hselected : ¬Settled selected) (hstatus : status = .failed ∨ status = .expired)
    (hid : ∀ r, u.guard r → r.id ∈ rows.map DispatchRow.id)
    (hguard : ∀ r, r.id ∈ rows.map DispatchRow.id → r.status = selected → u.guard r)
    (hset : ∀ r, (u.set r).status = status) : (s.sweep k rows u).SweepInv := by
  -- The rows selected are those the update finds.
  have hfind : ∀ j ∈ rows.map DispatchRow.id, ∃ r ∈ s.db.dispatchQueue, r.id = j ∧
      r.status = selected ∧ u.guard r := by
    intro j hj
    obtain ⟨r, hr, rfl, hsel⟩ := status?_eq_some.1 (hrows j hj)
    exact ⟨r, hr, rfl, hsel, hguard r hj hsel⟩
  have hover : ∀ j ∈ rows.map DispatchRow.id, (s.db.update u).status? j = some status := by
    intro j hj
    obtain ⟨r, hr, rfl, _, hg⟩ := hfind j hj
    have := status?_update_of_returning (mem_returning.2 ⟨r, hr, hg, rfl⟩)
    rwa [u.key_set, hset] at this
  have hsettled : Settled status := .inr hstatus
  have hlog : (s.sweep k rows u).log = s.log ++ [.swept (rows.map DispatchRow.id) (s.movedBy u)] :=
    rfl
  refine ⟨fun j agentId hcall => ?_, fun e he => ?_, fun returned moved hmem => ?_, ?_⟩
  · exact hkeep j _ (.inl rfl) (hs.dispatching j agentId (eraseIdx_subset hcall))
  · rw [hlog, mem_append, mem_singleton] at he
    rcases he with he | rfl
    · exact (hs.current e he).mono hkeep
    · intro j hj
      rcases hstatus with rfl | rfl
      · exact .inl (hover j hj)
      · exact .inr (hover j hj)
  · rw [hlog, mem_append, mem_singleton] at hmem
    rcases hmem with hmem | hmem
    · exact hs.moved returned moved hmem
    · obtain ⟨rfl, rfl⟩ := QueueEvent.swept.inj hmem
      intro j
      simp only [movedBy, List.mem_map, mem_filter, decide_eq_true_eq]
      constructor
      · intro hj
        obtain ⟨r, hr, rfl, hsel, hg⟩ := hfind j (List.mem_map.2 hj)
        refine ⟨r, ⟨hr, hg, fun heq => hselected ?_⟩, rfl⟩
        rw [← hsel, ← heq, hset]
        exact hsettled
      · rintro ⟨r, ⟨_, hg, _⟩, rfl⟩
        exact List.mem_map.1 (hid r hg)
  · have hreports : (s.sweep k rows u).reports = s.reports ++ [rows.map DispatchRow.id] := by
      rw [reports, hlog, filterMap_append]
      rfl
    rw [hreports, pairwise_append]
    refine ⟨hs.once, pairwise_singleton .., fun returned hret returned' hret' => ?_⟩
    obtain rfl := mem_singleton.1 hret'
    intro j hj hj'
    -- What was reported before is over, so it was not selected.
    obtain ⟨e, he, hee⟩ := mem_filterMap.1 hret
    cases e with
    | swept returned₀ moved =>
      cases hee
      have hold := hs.current _ he j hj
      rw [hrows j hj'] at hold
      exact hselected (.inr (hold.imp some.inj some.inj))
    | _ => cases hee

/-- The invariant after a claim. -/
theorem SweepInv.claim (hs : s.SweepInv) {agentId : Option String}
    (hkeep : ∀ j status, Settled status → s.db.status? j = some status →
      (s.db.update u).status? j = some status)
    (hset : ∀ r, (u.set r).status = .dispatched) : (s.claim u agentId).SweepInv := by
  -- Who is claimed is dispatched.
  have hclaimed : ∀ j ∈ (s.db.dispatchQueue.returning u).map DispatchRow.id,
      (s.db.update u).status? j = some .dispatched := by
    intro j hj
    obtain ⟨r, hr, rfl⟩ := List.mem_map.1 hj
    have hstatus : r.status = .dispatched := by
      obtain ⟨r₀, _, _, rfl⟩ := mem_returning.1 hr
      exact hset r₀
    rw [status?_update_of_returning hr, hstatus]
  refine hs.extend hkeep (fun j agentId' hcall => ?_) rfl (fun e he => ?_) fun _ _ he => ?_
  · rcases mem_append.1 hcall with h | h
    · exact .inl h
    · obtain ⟨j', hj', h⟩ := mem_flatMap.1 h
      obtain ⟨_, _, h⟩ := List.mem_map.1 h
      obtain ⟨rfl, _⟩ := QueueCall.dispatching.inj h
      exact .inr (hclaimed _ hj')
  · obtain ⟨j, hj, he⟩ := mem_flatMap.1 he
    rcases mem_cons.1 he with rfl | he
    · exact hclaimed j hj
    · obtain ⟨_, _, rfl⟩ := List.mem_map.1 he
      trivial
  · obtain ⟨j, _, he⟩ := mem_flatMap.1 he
    simp at he

/-- A safe step keeps the invariant. -/
theorem SweepInv.step (hs : s.SweepInv) {a : QueueAction} (ha : s.SweepSafe a)
    (hstep : s.step js order a = some t) : t.SweepInv := by
  have hkeep : ∀ j status, Settled status → s.db.status? j = some status →
      t.db.status? j = some status := fun _ _ hset h => hs.status?_step ha hstep hset h
  unfold QueueState.step at hstep
  cases a with
  | claimPatternFree | claimRowById =>
    cases hstep
    exact hs.claim hkeep fun _ => rfl
  | markDispatched q now k =>
    simp only at hstep
    split at hstep
    · cases hstep
      refine hs.extend hkeep (fun j agentId hcall => .inl (eraseIdx_subset hcall))
        (append_nil _).symm ?_ ?_ <;> simp
    · cases hstep
  | reconcileRecovery q now jobId agentId =>
    obtain ⟨-, ⟨⟩⟩ := ite_none_right_eq_some.1 hstep
    refine hs.extend hkeep (fun _ _ hcall => .inl hcall) rfl (fun e he => ?_) fun _ _ he => ?_
    · obtain ⟨r, hr, rfl⟩ := List.mem_map.1 he
      have hrow := status?_update_of_returning hr
      obtain ⟨r₀, _, hg, rfl⟩ := mem_returning.1 hr
      simp only [markDispatchedIfRecovering, decide_eq_true_eq] at hg
      simpa [Current, write, markDispatchedIfRecovering, hg.1] using hrow
    · simp at he
  | markExpiredSelect | sweepExpiredRecoveriesSelect =>
    cases hstep
    refine hs.extend hkeep (fun j agentId hcall => ?_) (append_nil _).symm ?_ ?_
    · exact .inl (by simpa using hcall)
    all_goals simp
  | markExpiredUpdate k =>
    simp only at hstep
    split at hstep
    · next rows hcall =>
      cases hstep
      refine hs.sweep hkeep (ha rows hcall) (by simp [Settled]) (.inr rfl) ?_ ?_ fun _ => rfl
      · intro r hg
        simpa [markExpiredUpdate] using hg
      · intro r hr _
        simpa [markExpiredUpdate] using hr
    · cases hstep
  | sweepExpiredRecoveriesUpdate k =>
    simp only at hstep
    split at hstep
    · next rows hcall =>
      cases hstep
      refine hs.sweep hkeep (ha rows hcall) (by simp [Settled]) (.inl rfl) ?_ ?_ fun _ => rfl
      · intro r hg
        simp only [sweepExpiredRecoveriesUpdate, decide_eq_true_eq] at hg
        exact hg.1
      · intro r hr hrec
        simp only [sweepExpiredRecoveriesUpdate, decide_eq_true_eq]
        exact ⟨hr, hrec⟩
    · cases hstep
  | _ => exact ha.elim

end QueueState

/-- In a run of sweeps, claims and reclaims in which every sweep finds its rows as it
selected them, each call returns exactly the rows it moved, no row is returned by
two calls, and none that was claimed or reclaimed. -/
theorem sweeps_exact {js : JsRuntime} {order : OrderBy DispatchRow.createdAt} {s t : QueueState}
    (hcalls : s.calls = []) (hlog : s.log = [])
    (h : (queueSystem js order).Path SweepSafe s t) : t.SweepsExact := by
  have hs : s.SweepInv := by
    constructor <;> simp [hcalls, hlog, reports]
  exact (h.invariant hs fun _ _ _ hs ha hstep => hs.step ha hstep).sweepsExact

/-- A test for the steps of claims and of sweeps, the updates of sweeps as long as
nothing was claimed. -/
def sweepTest (s : QueueState) : QueueAction → Bool
  | .claimRowById .. | .markExpiredSelect _ | .sweepExpiredRecoveriesSelect _ => true
  | .markExpiredUpdate k => match s.calls[k]? with
    | some (.markExpired rows) => rows.all fun r => s.db.status? r.id = some .pending
    | _ => false
  | _ => false

theorem sweepSafe_of_test (s : QueueState) (a : QueueAction) (h : sweepTest s a) :
    s.SweepSafe a := by
  cases a with
  | markExpiredUpdate k =>
    intro rows hcall j hj
    simp only [sweepTest, hcall, List.all_eq_true, decide_eq_true_eq] at h
    obtain ⟨r, hr, rfl⟩ := List.mem_map.1 hj
    exact h r hr
  | _ => trivial

/-- Two jobs, one of which expires at time `5`. -/
def twoJobs : QueueState where
  db := {
    dispatchQueue := ⟨[
      { id := "a", runId := "run", jobName := "a", status := .pending, createdAt := 0,
        expiresAt := some 5 },
      { id := "b", runId := "run", jobName := "b", status := .pending, createdAt := 0 }], by decide⟩
    executionRuns := []
    clusterInstances := []
    now := 0 }

/-- A sweep ends the job that has expired, and the other is claimed. -/
theorem sweeps_exact_twoJobs : ∃ t : QueueState, lowercaseQueueSystem.Path
    SweepSafe twoJobs t ∧ t.reports = [["a"]] ∧ t.SweepsExact := by
  obtain ⟨t, hpath, ht⟩ := lowercaseQueueSystem.exists_path twoJobs (fun t => t.reports = [["a"]])
    sweepSafe_of_test [
      .markExpiredSelect 9, .claimRowById {} 9 "b" (some "agent"), .markExpiredUpdate 0] (by decide)
  exact ⟨t, hpath, ht, sweeps_exact rfl rfl hpath⟩

/-- The steps of claims, reclaims and sweeps. -/
def QueueState.SweepOp (_ : QueueState) : QueueAction → Prop
  | .claimPatternFree .. | .claimRowById .. | .markDispatched .. | .reconcileRecovery .. => True
  | .markExpiredSelect _ | .sweepExpiredRecoveriesSelect _ => True
  | .markExpiredUpdate _ | .sweepExpiredRecoveriesUpdate _ => True
  | _ => False

/-- A test for these steps. -/
def sweepOpTest (_ : QueueState) : QueueAction → Bool
  | .claimRowById .. | .markExpiredSelect _ | .sweepExpiredRecoveriesSelect _ => true
  | .markExpiredUpdate _ | .sweepExpiredRecoveriesUpdate _ => true
  | _ => false

theorem sweepOp_of_test (s : QueueState) (a : QueueAction) (h : sweepOpTest s a) :
    s.SweepOp a := by
  cases a <;> trivial

/-- A job whose agent has not come back before time `5`. -/
def recoveringJob : QueueState where
  db := {
    dispatchQueue := ⟨[
      { id := "a", runId := "run", jobName := "a", status := .recovering, createdAt := 0,
        recoveryDeadline := some 5, recoveryAgentId := some "agent" }], by decide⟩
    executionRuns := []
    clusterInstances := []
    now := 0 }

/-- A run in which two coordinators sweep the recoveries at the same time: both return
the one row, which the second call does not move. -/
theorem exists_swept_twice : ¬∀ s t : QueueState, s.calls = [] → s.log = [] →
    lowercaseQueueSystem.Path SweepOp s t → t.SweepsExact := by
  intro h
  obtain ⟨t, hpath, ht⟩ := lowercaseQueueSystem.exists_path recoveringJob
      (fun t => t.log = [.swept ["a"] ["a"], .swept ["a"] []]) sweepOp_of_test [
      .sweepExpiredRecoveriesSelect 9, .sweepExpiredRecoveriesSelect 9,
      .sweepExpiredRecoveriesUpdate 0, .sweepExpiredRecoveriesUpdate 0] (by decide)
  have hlog := ht
  have := (h recoveringJob t rfl rfl hpath).moved ["a"] [] (by simp [hlog]) "a"
  simp at this

end Kici
