import Kici.Runs.Finished

/-!
# Verdicts that are forwarded

A status that is forwarded as the end of a run should be the one that the row of the run has
after the write (`TrackerEvent.Agrees`). `finalizeRunCompletion` and `onBuildFailed` forward
their status also when their write was rejected, so that this holds as long as each write that
is forwarded found a row that was not over, or had the status already
(`forwarded_is_stored`). `recordNeverStartedRun`, and all others that ask, forward nothing then.
-/

namespace Kici

open Option ExecutionRun TrackerState List

variable {point' : TrackerPoint} {κ : Type} [DecidableEq κ] {instanceId : κ → Option String}

/-- The write found a run that was not over, or had the status. -/
def RunWrite.Finds (write : RunWrite) (status : ExecutionRunStatus) : Prop :=
  ∃ found, write.found = some found ∧ (found ∉ TERMINAL_RUN_STATES ∨ found = status)

/-- What is forwarded as the end of a run is what is stored. `failRun` asks for no row. -/
def TrackerEvent.Agrees : TrackerEvent → Prop
  | .forwarded finisher _ status _ _ stored _ =>
    finisher ≠ .failRun → status ∈ TERMINAL_RUN_STATES → stored = some status
  | .wrote .. => True

namespace TrackerState

/-- A step in which `finalizeRunCompletion` and `onBuildFailed` forward no write that found a run
that had ended otherwise; `onBuildFailed` forwards nothing of a run that is not in memory. -/
def ForwardsAccepted (s : TrackerState κ) : TrackerAction κ → Prop
  | .next k _ => ∀ call ∈ s.calls[k]?,
      match call.point with
      | .forward .finalizeRunCompletion status _ _ write => write.Finds status
      | .failForward .onBuildFailed _ write =>
        s.runs call.coordinator call.runId = none ∨ write.Finds .failed
      | _ => True
  | _ => True

end TrackerState

/-! ## Writes -/

namespace RunsDb

variable {db : RunsDb} {u : Update runId} {runId : String} {status : ExecutionRunStatus}

/-- An update that applies gives its run the status it sets. -/
theorem statusOf_of_applies (h : db.applies u) (hguard : ∀ row, u.guard row → row.runId = runId)
    (hset : ∀ row, u.guard row → (u.set row).status = status) :
    (db.updateRuns u).statusOf runId = some status := by
  obtain ⟨row, hrow, hg⟩ := any_eq_true.1 h
  obtain rfl := hguard row hg
  exact statusOf_updateRuns_of_guard (Table.lookup_of_mem hrow) hg (hset row hg)

/-- So does an upsert that applies. -/
theorem statusOf_of_upsertApplies {row : ExecutionRun} (h : db.upsertApplies row u)
    (hguard : ∀ r, u.guard r → r.runId = row.runId)
    (hset : ∀ r, u.guard r → (u.set r).status = row.status) :
    (db.upsertRun row u).statusOf row.runId = some row.status := by
  rw [upsertRun.eq_def]
  split
  · next hrow =>
    rw [upsertApplies, hrow] at h
    exact statusOf_of_applies h hguard hset
  · next hrow => rw [statusOf, Table.lookup_insertNew_self hrow, map_some]

/-- One that does not apply changes nothing. -/
theorem statusOf_of_not_applies (h : db.applies u = false) :
    (db.updateRuns u).statusOf runId = db.statusOf runId := by
  rw [statusOf_updateRuns, statusOf]
  cases hrow : db.executionRuns.lookup runId with
  | none => rfl
  | some row =>
    have hg : u.guard row = false :=
      Bool.eq_false_iff.2 (any_eq_false.1 h row (Table.lookup_eq_some.1 hrow).1)
    rw [map_some, map_some, Update.apply_of_not_guard hg]

/-- An update of a run that is not over stores its status, where it finds one that is not over,
or has the status. -/
theorem stored_of_finds {write : RunWrite} (hwrite : write = .of db (db.updateRuns u) runId)
    (hguard : ∀ row, u.guard row ↔ row.runId = runId ∧ row.status ∉ TERMINAL_RUN_STATES)
    (hset : ∀ row, u.guard row → (u.set row).status = status) (hfinds : write.Finds status) :
    write.stored = some status := by
  subst hwrite
  by_cases happlies : db.applies u
  · exact statusOf_of_applies happlies (fun row hg => ((hguard row).1 hg).1) hset
  · have hfalse := Bool.eq_false_iff.2 happlies
    obtain ⟨found, hfound, hopen | rfl⟩ := hfinds
    · -- A run that is not over would have been changed.
      obtain ⟨row, hrow, rfl⟩ := map_eq_some_iff.1 hfound
      obtain ⟨hmem, hid⟩ := Table.lookup_eq_some.1 hrow
      exact absurd (any_eq_true.2 ⟨row, hmem, (hguard row).2 ⟨hid, hopen⟩⟩) happlies
    · exact (statusOf_of_not_applies hfalse).trans hfound

end RunsDb

/-! ## Calls -/

namespace TrackerState

variable {s t : TrackerState κ} {c : κ} {runId : String} {live : Bool} {point : TrackerPoint}
  {e : TrackerEvent}

/-- The writes that are to be forwarded stored the status, if those of `finalizeRunCompletion` and
`onBuildFailed` found a run that may get it. -/
def WritesStored : TrackerPoint → Prop
  | .fallbackStamp status _ _ write => write.stored = some status
  | .staleReason _ status _ _ write => write.stored = some status
  | .forward finisher status _ _ write =>
    (finisher = .finalizeRunCompletion → write.Finds status) → write.stored = some status
  | .failClearWindow .onBuildFailed _ write => write.Finds .failed → write.stored = some .failed
  | .failJobs .onBuildFailed _ write => write.Finds .failed → write.stored = some .failed
  | .failForward .onBuildFailed _ write => write.Finds .failed → write.stored = some .failed
  | .neverStartedForward _ write => write.stored = some .failed
  | _ => True

omit [DecidableEq κ] in
theorem writesStored_afterWindow {caller : WindowCaller}
    (h : (s.afterWindow c runId caller).2 = some point') : WritesStored point' := by
  cases caller with
  | readyToFinalize ref =>
    simp only [afterWindow, finalizeRunCompletion] at h
    split at h <;> cases h
    trivial
  | completeRunIfAllJobsTerminal =>
    simp only [afterWindow, completeRun, completeRunFromMemoryState] at h
    split at h
    · split at h
      · split at h <;> cases h <;> trivial
      · cases h
        trivial
    · cases h
      trivial

/-- A call that goes on keeps that its write stored the status. -/
theorem writesStored_nextOf (h : WritesStored point)
    (hpoint : (s.nextOf instanceId c runId live point).2 = some point') : WritesStored point' := by
  cases point with
  | openWindow =>
    simp only [nextOf] at hpoint
    split at hpoint <;> cases hpoint
  | clearWindow released =>
    simp only [nextOf] at hpoint
    split at hpoint
    · split at hpoint <;> cases hpoint
      trivial
    · cases hpoint
  | syncRunJobsFromRows ref ready =>
    simp only [nextOf] at hpoint
    split at hpoint
    · split at hpoint
      · cases hpoint
        trivial
      · rw [readyToFinalize] at hpoint
        split at hpoint <;> cases hpoint
        trivial
    · cases hpoint
  | window caller =>
    simp only [nextOf] at hpoint
    split at hpoint
    · split at hpoint
      · exact writesStored_afterWindow hpoint
      · cases hpoint
        trivial
    · exact writesStored_afterWindow hpoint
  | liveInstance caller =>
    simp only [nextOf] at hpoint
    split at hpoint
    · cases hpoint
    · exact writesStored_afterWindow hpoint
  | finalizeWrite status failureReason failureClass =>
    cases hpoint
    intro hfinds
    refine RunsDb.stored_of_finds rfl (fun row => ?_) (fun _ _ => rfl) (hfinds rfl)
    simp [finalizeUpdate]
  | memoryWrite | fallbackWrite =>
    simp only [nextOf] at hpoint
    split at hpoint
    · next happlies =>
      cases hpoint
      exact RunsDb.statusOf_of_applies happlies (fun _ hg => (of_decide_eq_true hg).1) fun _ _ => rfl
    · cases hpoint
  | fallbackJobs | fallbackRun =>
    simp only [nextOf] at hpoint
    split at hpoint <;> cases hpoint
    trivial
  | fallbackStamp =>
    cases hpoint
    exact h
  | staleReason =>
    cases hpoint
    exact fun _ => h
  | failWrite path failureReason =>
    cases path with
    | onBuildFailed =>
      cases hpoint
      refine RunsDb.stored_of_finds rfl (fun row => ?_) fun _ _ => rfl
      simp [buildFailedUpdate]
    | failRun run =>
      cases hpoint
      trivial
  | failClearWindow path failureReason write =>
    cases path <;> cases hpoint
    · exact h
    · trivial
  | failJobs path failureReason write =>
    cases path <;> cases hpoint
    · exact h
    · trivial
  | failForward path failureReason write =>
    cases path <;> (simp only [nextOf] at hpoint; split at hpoint <;> cases hpoint)
  | neverStartedWrite failureReason =>
    simp only [nextOf] at hpoint
    split at hpoint
    · next happlies =>
      cases hpoint
      exact RunsDb.statusOf_of_upsertApplies happlies (fun _ hg => (of_decide_eq_true hg).1)
        fun _ _ => rfl
    · cases hpoint
  | heldWrite isGlobalEvalRound =>
    simp only [nextOf, some.injEq] at hpoint
    split at hpoint <;> cases hpoint <;> trivial
  | forward | neverStartedForward | heldForward | heldForget => cases hpoint

/-- What was forwarded is what is stored, and so will what is about to be forwarded be. -/
structure VerdictsOk (s : TrackerState κ) : Prop where
  events : ∀ e ∈ s.events, e.Agrees
  calls : ∀ call ∈ s.calls, WritesStored call.point

variable {finisher : Finisher} {status : ExecutionRunStatus} {failureReason : Option JsString}
  {failureClass : Option RunFailureClass}

omit [DecidableEq κ] in
theorem VerdictsOk.extend (h : s.VerdictsOk) (hevents : ∀ e ∈ t.events, e ∈ s.events ∨ e.Agrees)
    (hcalls : ∀ call ∈ t.calls, call ∈ s.calls ∨ WritesStored call.point) : t.VerdictsOk where
  events e he := (hevents e he).elim (h.events e) id
  calls call hcall := (hcalls call hcall).elim (h.calls call) id

omit [DecidableEq κ] in
theorem VerdictsOk.same (h : s.VerdictsOk) (hevents : t.events = s.events) (hcalls : t.calls = s.calls) :
    t.VerdictsOk :=
  h.extend (fun _ he => .inl (hevents ▸ he)) fun _ hcall => .inl (hcalls ▸ hcall)

omit [DecidableEq κ] in
/-- A call that starts has written nothing yet. -/
theorem VerdictsOk.call (h : s.VerdictsOk) (hevents : t.events = s.events) (hcalls : t.calls = s.calls)
    (hpoint : WritesStored point) : (t.call c runId point).VerdictsOk := by
  refine h.extend (fun e he => .inl (hevents ▸ he)) fun call hcall => ?_
  rcases mem_append.1 hcall with hcall | hcall
  · exact .inl (hcalls ▸ hcall)
  · rw [mem_singleton.1 hcall]
    exact .inr hpoint

omit [DecidableEq κ] in
/-- A write that is forwarded only if it applies. -/
theorem VerdictsOk.writeAndForward {u : Update ExecutionRun.runId} (h : s.VerdictsOk)
    (hguard : ∀ row, u.guard row → row.runId = runId)
    (hset : ∀ row, u.guard row → (u.set row).status = status) :
    (s.writeAndForward finisher c runId u status failureReason failureClass).VerdictsOk := by
  rw [TrackerState.writeAndForward]
  split
  · next happlies =>
    refine h.extend (fun e he => ?_) fun _ hcall => .inl hcall
    rw [mem_events_forward, mem_events_logWrite] at he
    rcases he with (he | rfl) | rfl
    · exact .inl he
    · exact .inr trivial
    · exact .inr fun _ _ => RunsDb.statusOf_of_applies happlies hguard hset
  · exact h.same rfl rfl

/-- A call that goes on forwards what is stored. -/
theorem VerdictsOk.next {k : ℕ} {call : TrackerCall κ} (h : s.VerdictsOk)
    (hok : s.ForwardsAccepted (.next k live)) (hcall : s.calls[k]? = some call)
    (hstep : s.step instanceId (.next k live) = some t) : t.VerdictsOk := by
  simp only [step, hcall, some.injEq] at hstep
  subst hstep
  have hmem := mem_of_getElem? hcall
  have hforwards := hok call hcall
  have hstored := h.calls call hmem
  refine h.extend (fun e he => ?_) fun call' hcall' => ?_
  · rcases mem_events_nextOf he with he | ⟨_, _, rfl, -⟩ | ⟨finisher, status, _, _, write, rfl, hpoint⟩
    · exact .inl he
    · exact .inr trivial
    · refine .inr fun hfinisher hterminal => ?_
      revert hpoint hforwards hstored
      cases call.point with
      | forward =>
        rintro hforwards hstored ⟨rfl, rfl, rfl⟩
        refine hstored ?_
        rintro rfl
        exact hforwards
      | failForward path =>
        cases path with
        | onBuildFailed =>
          rintro hforwards hstored ⟨hmemory, rfl, rfl, rfl⟩
          exact hstored (hforwards.resolve_left hmemory)
        | failRun => exact fun _ _ hpoint => absurd hpoint hfinisher
      | neverStartedForward =>
        rintro - hstored ⟨rfl, rfl, rfl⟩
        exact hstored
      | heldForward =>
        rintro - - rfl
        exact absurd hterminal (by decide)
      | _ => exact fun _ _ hpoint => hpoint.elim
  · -- The calls are the others, and this one at its next point.
    rcases mem_append.1 hcall' with hcall' | hcall'
    · rcases mem_append.1 hcall' with hcall' | hcall'
      · exact .inl (mem_of_mem_take hcall')
      · obtain ⟨point, hpoint, rfl⟩ := map_eq_some_iff.1 (mem_toList.1 hcall')
        exact .inr (writesStored_nextOf hstored hpoint)
    · exact .inl (mem_of_mem_drop hcall')

theorem VerdictsOk.step {a : TrackerAction κ} (h : s.VerdictsOk) (hok : s.ForwardsAccepted a)
    (hstep : s.step instanceId a = some t) : t.VerdictsOk := by
  cases a with
  | onExecutionStarted c runId checkMode jobs =>
    simp only [TrackerState.step] at hstep
    split at hstep
    · split at hstep <;> cases hstep <;> exact h.same rfl rfl
    · cases hstep
      exact h.same rfl rfl
  | recoverRunFromDb c runId checkMode driftDetected =>
    simp only [TrackerState.step] at hstep
    split at hstep
    · split at hstep <;> cases hstep
      exact h.same rfl rfl
    · cases hstep
  | setJob | deleteJob | detectDrift | setRunStatus | releaseRunFinishedElsewhere =>
    cases hstep
    exact h.same modifyRun_events modifyRun_calls
  | holdRunForPendingJobs c runId =>
    simp only [TrackerState.step] at hstep
    split at hstep <;> cases hstep
    · exact h.call modifyRun_events modifyRun_calls trivial
    · exact h.same modifyRun_events modifyRun_calls
  | releasePendingJobsHold c runId =>
    simp only [TrackerState.step] at hstep
    split at hstep
    · cases hstep
      exact h.call rfl rfl trivial
    · split at hstep
      · cases hstep
        exact h
      · split at hstep <;> cases hstep
        · exact h.same rfl rfl
        · exact h.call rfl rfl trivial
  | checkCompletion c runId =>
    simp only [TrackerState.step, readyToFinalize] at hstep
    split at hstep
    · cases hstep
    · split at hstep <;> next heq =>
        split at heq <;> cases heq
        cases hstep
        first | exact h | exact h.call rfl rfl trivial
  | prune | persistJobStatus | deleteJobRow | writeRun | claimHeldGlobalEvalRound | resumeHeldRun =>
    cases hstep
    exact h.same rfl rfl
  | completeRunIfAllJobsTerminal | onBuildFailed | failRun | recordNeverStartedRun | recordRunHeld =>
    cases hstep
    exact h.call rfl rfl trivial
  | completeReleasedGlobalEvalRound c runId reason =>
    cases hstep
    refine h.writeAndForward (fun row hg => (of_decide_eq_true hg).1) fun row _ => ?_
    cases reason <;> rfl
  | cancelHeldRun | cancelJoblessRun =>
    cases hstep
    exact h.writeAndForward (fun row hg => (of_decide_eq_true hg).1) fun _ _ => rfl
  | next k live =>
    cases hcall : s.calls[k]? with
    | none => simp [TrackerState.step, hcall] at hstep
    | some call => exact h.next hok hcall hstep

end TrackerState

/-- Every status that is forwarded as the end of a run is the one stored in its row, as long as
the writes that are forwarded unasked found runs that had not ended otherwise. -/
theorem forwarded_is_stored {s t : TrackerState κ} (hinit : s ∈ (trackerSystem instanceId).init)
    (h : (trackerSystem instanceId).Path (fun s a => s.ForwardsAccepted a) s t) :
    ∀ e ∈ t.events, e.Agrees := by
  have hstart : s.VerdictsOk := ⟨by simp [hinit.2], by simp [hinit.1]⟩
  exact (h.invariant hstart fun _ _ _ hs hok hstep => hs.step hok hstep).events

/-! ## Running the system -/

/-- A run that is up to write its end: its only job was successful. -/
def finalizing : List (TrackerAction String) :=
  [.onExecutionStarted "a" "run" none [{ jobId := "job", name := "test" }],
    .setJob "a" "run" { jobId := "job", name := "test", status := .success },
    .checkCompletion "a" "run", .next 0 false, .next 0 false]

/-- A test for steps in which no write that found a run that is over is forwarded unasked. -/
def forwardsAcceptedTest (s : TrackerState String) : TrackerAction String → Bool
  | .next k _ =>
    match s.calls[k]? with
    | some ⟨_, _, .forward .finalizeRunCompletion _ _ _ write⟩ =>
      write.found.any (· ∉ TERMINAL_RUN_STATES)
    | some ⟨_, _, .failForward .onBuildFailed _ write⟩ => write.found.any (· ∉ TERMINAL_RUN_STATES)
    | _ => true
  | _ => true

theorem forwardsAccepted_of_test (s : TrackerState String) (a : TrackerAction String)
    (h : forwardsAcceptedTest s a) : s.ForwardsAccepted a := by
  cases a with
  | next k live =>
    intro call hcall
    obtain ⟨c, runId, point⟩ := call
    rw [Option.mem_def] at hcall
    have hfinds : ∀ {write : RunWrite} {status}, write.found.any (· ∉ TERMINAL_RUN_STATES) →
        write.Finds status := by
      intro write status hany
      obtain ⟨found, hfound, hopen⟩ := (Option.any_eq_true _ _).1 hany
      exact ⟨found, hfound, .inl (of_decide_eq_true hopen)⟩
    cases point with
    | forward finisher =>
      cases finisher with
      | finalizeRunCompletion => exact hfinds (by simpa [forwardsAcceptedTest, hcall] using h)
      | _ => trivial
    | failForward path =>
      cases path with
      | onBuildFailed => exact .inr (hfinds (by simpa [forwardsAcceptedTest, hcall] using h))
      | failRun => trivial
    | _ => trivial
  | _ => trivial

/-- A run that ends with its only job. -/
theorem forwarded_is_stored_single : ∃ t : TrackerState String,
    .forwarded .finalizeRunCompletion "run" .success none none (some .success) 0 ∈ t.events ∧
    ∀ e ∈ t.events, e.Agrees := by
  obtain ⟨t, hpath, ht⟩ := (trackerSystem some).exists_path (runWithStatus .pending)
      (fun t => .forwarded .finalizeRunCompletion "run" .success none none (some .success) 0 ∈ t.events)
    forwardsAccepted_of_test (finalizing ++ [.next 0 false, .next 0 false])
      (by decide)
  exact ⟨t, ht, forwarded_is_stored ⟨rfl, rfl⟩ hpath⟩

/-- A run that is forwarded as successful, though it failed: another coordinator gave its build
up before the end was written. -/
theorem exists_forwarded_not_stored : ¬∀ (s t : TrackerState String), s ∈ (trackerSystem some).init →
    (trackerSystem some).Path System.anyStep s t → ∀ e ∈ t.events, e.Agrees := by
  intro h
  obtain ⟨t, hpath, ht⟩ := (trackerSystem some).exists_path (runWithStatus .pending)
      (fun t => .forwarded .finalizeRunCompletion "run" .success none none (some .failed) 0 ∈ t.events)
    System.anyStep_of_true
      (finalizing ++ [TrackerAction.onBuildFailed "b" "run" none, .next 1 false, .next 0 false,
        .next 0 false])
      (by decide)
  have hagrees := h _ t ⟨rfl, rfl⟩ hpath _ ht
  cases hagrees (by decide) (by decide)

end Kici
