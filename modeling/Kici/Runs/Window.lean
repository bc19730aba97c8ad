import Kici.Runs.Finished

/-!
# Registration windows

While a coordinator holds a token for a run, jobs of the run are still to be registered, and the
run should not be finished (`no_completion_in_window`). The token is only read by
`isRunComplete`: `completeRunFromDbFallback`, to which the stale detector comes when memory says
that the run is not complete, does not ask for it, and `finalizeRunCompletion` is reached some
statements after the last time it was read.

So the result is about the runs in which both begin without a token, and none is taken while the
fallback finishes the run. A finished run takes no more tokens (`Settled`).
-/

namespace Kici

open List Option TrackerState RunState

variable {caller : WindowCaller} {κ : Type} [DecidableEq κ] {instanceId : κ → Option String}

/-- The tokens that were held at the time. -/
def TrackerEvent.tokens : TrackerEvent → ℕ
  | .wrote _ _ _ tokens => tokens
  | .forwarded _ _ _ _ _ _ tokens => tokens

/-- `completeRunFromDbFallback` finishes the run. -/
def TrackerPoint.fallsBack : TrackerPoint → Bool
  | .fallbackWrite .. | .fallbackStamp .. => true
  | .staleReason finisher .. | .forward finisher .. => finisher = .completeRunFromDbFallback
  | _ => false

/-- `finalizeRunCompletion` or `completeRunFromDbFallback` are about to write the end of the run. -/
def TrackerPoint.writesEnd : TrackerPoint → Bool
  | .finalizeWrite .. | .fallbackWrite .. => true
  | _ => false

namespace TrackerState

/-- A step in which tokens are taken or dropped, jobs are added or get statuses, or the stale
detector looks for runs that are over. -/
def Registers : TrackerAction κ → Prop
  | .onExecutionStarted .. | .prune .. | .onBuildFailed .. | .failRun .. | .recordNeverStartedRun ..
  | .recordRunHeld .. | .completeReleasedGlobalEvalRound .. | .cancelHeldRun ..
  | .cancelJoblessRun .. => False
  | _ => True

/-- A step in which no run is about to be finished while a token is held, but for the part that
asks, and no token is taken while the fallback finishes the run. -/
def KeepsWindow (instanceId : κ → Option String) (s : TrackerState κ) : TrackerAction κ → Prop
  | .holdRunForPendingJobs c runId => ∀ ref, s.runs c runId = some ref →
      ∀ call ∈ s.calls, call.point.fallsBack = true → s.runs call.coordinator call.runId ≠ some ref
  | .next k live => ∀ call ∈ s.calls[k]?, ∀ point,
      (s.nextOf instanceId call.coordinator call.runId live call.point).2 = some point →
      point.writesEnd = true → s.tokens call.coordinator call.runId = 0
  | _ => True

end TrackerState

/-! ## Memory -/

/-- A change of a run in memory that takes no token, and leaves a completed run completed. -/
def RunState.Eases (run run' : RunState) : Prop :=
  run'.pendingJobRegistrations ≤ run.pendingJobRegistrations ∧
    (run.completedAt = true → run'.completedAt = true)

namespace RunState

variable {run run' run'' : RunState}

theorem Eases.refl (run : RunState) : run.Eases run := ⟨le_rfl, id⟩

theorem Eases.trans (h : run.Eases run') (h' : run'.Eases run'') : run.Eases run'' :=
  ⟨h'.1.trans h.1, h'.2 ∘ h.2⟩

theorem eases_releaseFinishedElsewhere : run.Eases run.releaseFinishedElsewhere := by
  rw [releaseFinishedElsewhere]
  split
  · exact .refl run
  · exact ⟨Nat.zero_le _, fun _ => rfl⟩

theorem eases_foldRows (rows : List RunJob) : run.Eases (foldRows rows run) := by
  suffices hfold : ∀ run : RunState, run.Eases (foldRows rows run) from hfold run
  induction rows with
  | nil => exact Eases.refl
  | cons row rows ih =>
    intro run
    rw [foldRows, foldl_cons]
    refine .trans ?_ (ih _)
    split
    · exact ⟨le_rfl, id⟩
    · split <;> exact ⟨le_rfl, id⟩

end RunState

namespace TrackerState

variable {s t : TrackerState κ} {c : κ} {runId : String} {live : Bool} {point : TrackerPoint} {ref : ℕ}
  {f : RunState → RunState} {point' : TrackerPoint}

/-- The run of a coordinator is completed, and holds no token: it takes none any more. -/
def Settled (s : TrackerState κ) (c : κ) (runId : String) : Prop :=
  ∃ run, s.run c runId = some run ∧ run.completedAt = true ∧ run.pendingJobRegistrations = 0

/-- The memory of all coordinators is left, but for changes that ease. -/
structure MemoryEased (s t : TrackerState κ) : Prop where
  runs : t.runs = s.runs
  objects : ∀ ref : ℕ, Option.Rel Eases s.objects[ref]? t.objects[ref]?

omit [DecidableEq κ]

theorem MemoryEased.of_eq (hruns : t.runs = s.runs) (hobjects : t.objects = s.objects) :
    s.MemoryEased t where
  runs := hruns
  objects ref := by
    rw [hobjects]
    cases s.objects[ref]? with
    | none => exact .none
    | some run => exact .some (.refl run)

theorem memoryEased_modify (h : ∀ run, s.objects[ref]? = some run → run.Eases (f run)) :
    s.MemoryEased (s.modify ref f) where
  runs := rfl
  objects ref' := by
    rw [modify, getElem?_modify]
    cases hrun : s.objects[ref']? with
    | none => exact .none
    | some run =>
      refine .some ?_
      split
      · next heq => exact h run (heq ▸ hrun)
      · exact .refl run

theorem memoryEased_modifyRun (h : ∀ run : RunState, run.Eases (f run)) :
    s.MemoryEased (s.modifyRun c runId f) := by
  rw [modifyRun.eq_def]
  split
  · exact memoryEased_modify fun run _ => h run
  · exact .of_eq rfl rfl

/-- What is in memory stays there, eased. -/
theorem MemoryEased.run (h : s.MemoryEased t) :
    Option.Rel Eases (s.run c runId) (t.run c runId) := by
  rw [TrackerState.run, TrackerState.run, h.runs]
  cases s.runs c runId with
  | none => exact .none
  | some ref => exact h.objects ref

theorem MemoryEased.tokens_le (h : s.MemoryEased t) (c : κ) (runId : String) :
    t.tokens c runId ≤ s.tokens c runId := by
  have hrun : Option.Rel Eases (s.run c runId) (t.run c runId) := h.run
  rw [tokens, tokens]
  generalize s.run c runId = run, t.run c runId = run' at hrun ⊢
  cases hrun with
  | none => exact le_rfl
  | some heases => exact heases.1

theorem MemoryEased.settled (h : s.MemoryEased t) (hs : s.Settled c runId) : t.Settled c runId := by
  obtain ⟨run, hrun, hcompleted, htokens⟩ := hs
  have hrel : Option.Rel Eases (s.run c runId) (t.run c runId) := h.run
  rw [hrun] at hrel
  generalize hrun' : t.run c runId = run' at hrel
  cases hrel with
  | some heases => exact ⟨_, hrun', heases.2 hcompleted, Nat.le_zero.1 (htokens ▸ heases.1)⟩

theorem Settled.tokens (h : s.Settled c runId) : s.tokens c runId = 0 := by
  obtain ⟨run, hrun, -, htokens⟩ := h
  rw [TrackerState.tokens, hrun]
  exact htokens

/-- A run that holds no token is settled once it is completed. -/
theorem settled_modify (href : s.runs c runId = some ref) (hrun : (s.run c runId).isSome)
    (htokens : s.tokens c runId = 0)
    (hf : ∀ run, (f run).completedAt ∧ (f run).pendingJobRegistrations = run.pendingJobRegistrations) :
    (s.modify ref f).Settled c runId := by
  obtain ⟨run, hrun⟩ := isSome_iff_exists.1 hrun
  rw [tokens, hrun] at htokens
  rw [TrackerState.run, href, bind_some] at hrun
  refine ⟨f run, ?_, (hf run).1, (hf run).2.trans htokens⟩
  rw [TrackerState.run, modify, href, bind_some, getElem?_modify, hrun]
  simp

/-! ## Calls -/

/-- The run of a call is in memory, at the place the call has. -/
def Tracks (s : TrackerState κ) (c : κ) (runId : String) (ref : ℕ) : Prop :=
  s.runs c runId = some ref ∧ (s.run c runId).isSome

/-- What holds for a call: its run is settled, or the fallback finishes it while no token is
held, once it is about to be finished. -/
def PointOk (s : TrackerState κ) (c : κ) (runId : String) : TrackerPoint → Prop
  | .openWindow | .clearWindow none | .window .completeRunIfAllJobsTerminal
  | .liveInstance .completeRunIfAllJobsTerminal | .fallbackJobs | .fallbackRun .. => True
  | .clearWindow (some ref) | .syncRunJobsFromRows ref _ | .window (.readyToFinalize ref)
  | .liveInstance (.readyToFinalize ref) => s.Tracks c runId ref
  | .finalizeWrite .. | .memoryWrite .. => s.Settled c runId
  | .fallbackWrite .. | .fallbackStamp .. => s.tokens c runId = 0
  | .staleReason finisher .. | .forward finisher .. =>
    if finisher = .completeRunFromDbFallback then s.tokens c runId = 0 else s.Settled c runId
  | .failWrite .. | .failClearWindow .. | .failJobs .. | .failForward .. | .neverStartedWrite _
  | .neverStartedForward .. | .heldWrite _ | .heldForward _ | .heldForget => False

/-- What holds for a call is kept, if its run stays in memory, settled if it was, and no token is
taken while the fallback finishes it. -/
theorem PointOk.mono (h : s.PointOk c runId point)
    (htracks : ∀ ref, s.Tracks c runId ref → t.Tracks c runId ref)
    (hsettled : s.Settled c runId → t.Settled c runId)
    (htokens : point.fallsBack → s.tokens c runId = 0 → t.tokens c runId = 0) :
    t.PointOk c runId point := by
  cases point with
  | clearWindow released =>
    cases released with
    | none => trivial
    | some ref => exact htracks ref h
  | window caller =>
    cases caller with
    | readyToFinalize ref => exact htracks ref h
    | completeRunIfAllJobsTerminal => trivial
  | liveInstance caller =>
    cases caller with
    | readyToFinalize ref => exact htracks ref h
    | completeRunIfAllJobsTerminal => trivial
  | syncRunJobsFromRows ref ready => exact htracks ref h
  | finalizeWrite | memoryWrite => exact hsettled h
  | fallbackWrite | fallbackStamp => exact htokens rfl h
  | staleReason finisher | forward finisher =>
    rw [PointOk] at h ⊢
    split at h
    · next heq => rw [if_pos heq]; exact htokens (decide_eq_true heq) h
    · next hne => rw [if_neg hne]; exact hsettled h
  | openWindow | fallbackJobs | fallbackRun => trivial
  | failWrite | failClearWindow | failJobs | failForward | neverStartedWrite | neverStartedForward
  | heldWrite | heldForward | heldForget => exact h

theorem MemoryEased.tracks (h : s.MemoryEased t) (hs : s.Tracks c runId ref) : t.Tracks c runId ref := by
  refine ⟨h.runs ▸ hs.1, ?_⟩
  have hrel : Option.Rel Eases (s.run c runId) (t.run c runId) := h.run
  obtain ⟨run, hrun⟩ := isSome_iff_exists.1 hs.2
  rw [hrun] at hrel
  generalize t.run c runId = run' at hrel ⊢
  cases hrel with
  | some => rfl

theorem PointOk.eased (h : s.PointOk c runId point) (heased : s.MemoryEased t) :
    t.PointOk c runId point :=
  h.mono (fun _ => heased.tracks) heased.settled fun _ hzero =>
    Nat.le_zero.1 (hzero ▸ heased.tokens_le c runId)

/-- What a call reports, it reports without a token. -/
theorem PointOk.tokens_of_writes (h : s.PointOk c runId point) {finisher : Finisher}
    (hwrites : Writes finisher point) : s.tokens c runId = 0 := by
  cases point with
  | finalizeWrite | memoryWrite => exact Settled.tokens h
  | fallbackWrite => exact h
  | failWrite | neverStartedWrite => exact h.elim
  | _ => exact hwrites.elim

theorem PointOk.tokens_of_forwards (h : s.PointOk c runId point) {memory : Option ℕ}
    {finisher : Finisher}
    {status : ExecutionRunStatus} {write : RunWrite}
    (hforwards : Forwards memory finisher status write point) : s.tokens c runId = 0 := by
  cases point with
  | forward =>
    rw [PointOk] at h
    split at h
    · exact h
    · exact h.tokens
  | failForward | neverStartedForward | heldForward => exact h.elim
  | _ => exact hforwards.elim

theorem memoryEased_finalizeRunCompletion : s.MemoryEased (s.finalizeRunCompletion ref).1 := by
  rw [finalizeRunCompletion.eq_def]
  split
  · exact .of_eq rfl rfl
  · exact memoryEased_modify fun _ _ => ⟨le_rfl, fun _ => rfl⟩

theorem memoryEased_completeRun : s.MemoryEased (s.completeRun c runId).1 := by
  rw [completeRun.eq_def]
  split
  · split
    · split
      · exact memoryEased_modify fun _ _ => ⟨le_rfl, fun _ => rfl⟩
      · exact .of_eq rfl rfl
    · exact .of_eq rfl rfl
  · exact .of_eq rfl rfl

theorem memoryEased_afterWindow : s.MemoryEased (s.afterWindow c runId caller).1 := by
  cases caller with
  | readyToFinalize => exact memoryEased_finalizeRunCompletion
  | completeRunIfAllJobsTerminal => exact memoryEased_completeRun

theorem memoryEased_clearWindow : s.MemoryEased (s.clearWindow instanceId c runId) := by
  rw [clearWindow.eq_def]
  split <;> exact .of_eq rfl rfl

variable [DecidableEq κ]

/-- A call that goes on takes no token. -/
theorem PointOk.memoryEased_nextOf (h : s.PointOk c runId point) :
    s.MemoryEased (s.nextOf instanceId c runId live point).1 := by
  have hsame : s.MemoryEased s := .of_eq rfl rfl
  cases point with
  | openWindow | finalizeWrite | memoryWrite | fallbackJobs | fallbackRun | fallbackWrite
  | staleReason =>
    simp only [nextOf]
    split <;> exact .of_eq rfl rfl
  | clearWindow released =>
    simp only [nextOf]
    split
    · split <;> exact memoryEased_clearWindow
    · exact memoryEased_clearWindow
  | syncRunJobsFromRows ref ready =>
    have hsync : s.MemoryEased (s.modify ref (foldRows (s.db.jobsOf runId))) :=
      memoryEased_modify fun _ _ => eases_foldRows _
    simp only [nextOf]
    split
    · split
      · exact hsync
      · rw [readyToFinalize_fst]
        exact hsync
    · exact hsync
  | window caller =>
    simp only [nextOf]
    split
    · split
      · exact memoryEased_afterWindow
      · exact hsame
    · exact memoryEased_afterWindow
  | liveInstance caller =>
    simp only [nextOf]
    split
    · exact hsame
    · exact memoryEased_afterWindow
  | fallbackStamp => exact memoryEased_modifyRun fun _ => ⟨le_rfl, fun _ => rfl⟩
  | forward => exact .of_eq rfl rfl
  | failWrite | failClearWindow | failJobs | failForward | neverStartedWrite | neverStartedForward
  | heldWrite | heldForward | heldForget => exact h.elim

omit [DecidableEq κ] in
theorem Tracks.pointOk_finalizeRunCompletion (h : s.Tracks c runId ref)
    (hpoint : (s.finalizeRunCompletion ref).2 = some point')
    (hends : point'.writesEnd → s.tokens c runId = 0) :
    (s.finalizeRunCompletion ref).1.PointOk c runId point' := by
  rw [finalizeRunCompletion.eq_def] at hpoint ⊢
  split at hpoint
  · cases hpoint
  · next run hrun =>
    cases hpoint
    exact settled_modify h.1 h.2 (hends rfl) fun _ => ⟨rfl, rfl⟩

omit [DecidableEq κ] in
/-- The stale detector finishes a run from memory only if it is complete, so without a token. -/
theorem pointOk_completeRun (hpoint : (s.completeRun c runId).2 = some point') :
    (s.completeRun c runId).1.PointOk c runId point' := by
  cases href : s.runs c runId with
  | none =>
    simp only [completeRun, href, some.injEq] at hpoint ⊢
    subst hpoint
    trivial
  | some ref =>
    cases hrun : s.objects[ref]? with
    | none =>
      simp only [completeRun, href, hrun, some.injEq] at hpoint ⊢
      subst hpoint
      trivial
    | some run =>
      simp only [completeRun, href, hrun] at hpoint ⊢
      have hmem : s.run c runId = some run := by rw [TrackerState.run, href, bind_some, hrun]
      split at hpoint
      · next hcomplete =>
        cases hpoint
        rw [if_pos hcomplete]
        refine settled_modify href (by rw [hmem]; rfl) ?_ fun _ => ⟨rfl, rfl⟩
        rw [tokens, hmem]
        exact tokens_of_isComplete hcomplete
      · next hcomplete =>
        cases hpoint
        rw [if_neg hcomplete]
        trivial

omit [DecidableEq κ] in
theorem pointOk_afterWindow (h : s.PointOk c runId (.window caller))
    (hpoint : (s.afterWindow c runId caller).2 = some point')
    (hends : point'.writesEnd → s.tokens c runId = 0) :
    (s.afterWindow c runId caller).1.PointOk c runId point' := by
  cases caller with
  | readyToFinalize ref => exact Tracks.pointOk_finalizeRunCompletion h hpoint hends
  | completeRunIfAllJobsTerminal => exact pointOk_completeRun hpoint

/-- A call that goes on keeps what holds for it, if it is about to write the end of a run only
while no token is held. -/
theorem PointOk.next (h : s.PointOk c runId point)
    (hpoint : (s.nextOf instanceId c runId live point).2 = some point')
    (hends : point'.writesEnd → s.tokens c runId = 0) :
    (s.nextOf instanceId c runId live point).1.PointOk c runId point' := by
  have heased : s.MemoryEased (s.nextOf instanceId c runId live point).1 := h.memoryEased_nextOf
  cases point with
  | openWindow =>
    simp only [nextOf] at hpoint
    split at hpoint <;> cases hpoint
  | clearWindow released =>
    cases released with
    | none => cases hpoint
    | some ref =>
      have htracks := heased.tracks h
      simp only [nextOf] at hpoint
      split at hpoint <;> cases hpoint
      exact htracks
  | syncRunJobsFromRows ref ready =>
    have htracks := heased.tracks h
    simp only [nextOf] at hpoint
    split at hpoint
    · split at hpoint
      · cases hpoint
        exact htracks
      · rw [readyToFinalize] at hpoint
        split at hpoint <;> cases hpoint
        exact htracks
    · cases hpoint
  | window caller =>
    simp only [nextOf] at hpoint ⊢
    split at hpoint
    · split at hpoint
      · next hown =>
        rw [if_pos hown]
        exact pointOk_afterWindow h hpoint hends
      · next hown =>
        rw [if_neg hown]
        cases hpoint
        cases caller <;> exact h
    · exact pointOk_afterWindow h hpoint hends
  | liveInstance caller =>
    simp only [nextOf] at hpoint ⊢
    split at hpoint
    · cases hpoint
    · next hlive =>
      rw [if_neg hlive]
      have hwindow : s.PointOk c runId (.window caller) := by cases caller <;> exact h
      exact pointOk_afterWindow hwindow hpoint hends
  | finalizeWrite =>
    cases hpoint
    exact heased.settled h
  | memoryWrite =>
    have hsettled := heased.settled h
    simp only [nextOf] at hpoint
    split at hpoint <;> cases hpoint
    exact hsettled
  | fallbackJobs =>
    simp only [nextOf] at hpoint
    split at hpoint <;> cases hpoint
    trivial
  | fallbackRun =>
    have hzero := heased.tokens_le c runId
    simp only [nextOf] at hpoint
    split at hpoint <;> cases hpoint
    exact Nat.le_zero.1 (hends rfl ▸ hzero)
  | fallbackWrite =>
    have hzero := heased.tokens_le c runId
    simp only [nextOf] at hpoint
    split at hpoint <;> cases hpoint
    exact Nat.le_zero.1 (h ▸ hzero)
  | fallbackStamp =>
    cases hpoint
    exact Nat.le_zero.1 (h ▸ heased.tokens_le c runId)
  | staleReason =>
    cases hpoint
    exact h.eased heased
  | forward => cases hpoint
  | failWrite | failClearWindow | failJobs | failForward | neverStartedWrite | neverStartedForward
  | heldWrite | heldForward | heldForget => exact h.elim

/-! ## Tokens that are taken -/

variable {c' : κ} {runId' : String}

omit [DecidableEq κ] in
/-- A run in memory, before and after another changes. -/
theorem run_modify (ref : ℕ) (f : RunState → RunState) : (s.modify ref f).run c runId =
    if s.runs c runId = some ref then (s.run c runId).map f else s.run c runId := by
  rw [run, run, modify]
  cases s.runs c runId with
  | none => rfl
  | some ref' =>
    rw [bind_some, bind_some, getElem?_modify]
    by_cases heq : ref = ref'
    · subst heq
      simp
    · simp [heq, Ne.symm heq]

omit [DecidableEq κ] in
/-- What holds for a call is kept when a token is taken, if the fallback does not finish the run. -/
theorem PointOk.hold (h : s.PointOk c runId point)
    (hfree : point.fallsBack → s.runs c runId ≠ some ref) :
    (s.modify ref (·.holdForPendingJobs)).PointOk c runId point := by
  refine h.mono (fun ref' htracks => ⟨htracks.1, ?_⟩) ?_ fun hfallsBack hzero => ?_
  · rw [run_modify]
    split
    · simpa using htracks.2
    · exact htracks.2
  · -- A completed run takes no token.
    rintro ⟨run, hrun, hcompleted, htokens⟩
    refine ⟨run, ?_, hcompleted, htokens⟩
    rw [run_modify, hrun]
    split
    · rw [map_some, holdForPendingJobs, if_pos hcompleted]
    · rfl
  · rw [tokens, run_modify, if_neg (hfree hfallsBack)]
    exact hzero

/-- A run that is in memory is left when another one gets there. -/
theorem run_addRun {run : RunState} (new : RunState) (hnew : s.run c' runId' = none)
    (hrun : s.run c runId = some run) : (s.addRun c' runId' new).runs c runId = s.runs c runId ∧
      (s.addRun c' runId' new).run c runId = some run := by
  have hne : ¬(c = c' ∧ runId = runId') := by
    rintro ⟨rfl, rfl⟩
    rw [hnew] at hrun
    cases hrun
  have hruns : (s.addRun c' runId' new).runs c runId = s.runs c runId := if_neg hne
  refine ⟨hruns, ?_⟩
  rw [TrackerState.run] at hrun ⊢
  rw [hruns]
  obtain ⟨ref, href, hobject⟩ := bind_eq_some_iff.1 hrun
  rw [href, bind_some]
  obtain ⟨hlt, -⟩ := List.getElem?_eq_some_iff.1 hobject
  exact (getElem?_append_left hlt).trans hobject

/-- A run that comes into memory has no token. -/
theorem tokens_addRun {new : RunState} (hnew : s.run c' runId' = none)
    (hzero : new.pendingJobRegistrations = 0) (h : s.tokens c runId = 0) :
    (s.addRun c' runId' new).tokens c runId = 0 := by
  cases hrun : s.run c runId with
  | some run =>
    rw [tokens, (run_addRun _ hnew hrun).2]
    rwa [tokens, hrun] at h
  | none =>
    -- What is found, if anything, is the new run.
    rw [tokens]
    cases hfound : (s.addRun c' runId' new).run c runId with
    | none => rfl
    | some run =>
      obtain ⟨ref, href, hobject⟩ := bind_eq_some_iff.1 hfound
      have hobject : (s.objects ++ [new])[ref]? = some run := hobject
      have hge : s.objects.length ≤ ref := by
        by_cases heq : c = c' ∧ runId = runId'
        · have hlast : some s.objects.length = some ref := (if_pos heq).symm.trans href
          exact (some.inj hlast).le
        · have hold : s.runs c runId = some ref := (if_neg heq).symm.trans href
          rw [TrackerState.run, hold, bind_some] at hrun
          exact List.getElem?_eq_none_iff.1 hrun
      rw [getElem?_append_right hge] at hobject
      obtain rfl := mem_singleton.1 (mem_of_getElem? hobject)
      exact hzero

/-- What holds for a call is kept when another run comes into memory. -/
theorem PointOk.addRun (h : s.PointOk c runId point) {new : RunState} (hnew : s.run c' runId' = none)
    (hzero : new.pendingJobRegistrations = 0) : (s.addRun c' runId' new).PointOk c runId point := by
  refine h.mono (fun ref htracks => ?_) ?_ fun _ => tokens_addRun hnew hzero
  · obtain ⟨run, hrun⟩ := isSome_iff_exists.1 htracks.2
    obtain ⟨hruns, hrun'⟩ := run_addRun new hnew hrun
    exact ⟨hruns.trans htracks.1, by rw [hrun']; rfl⟩
  · rintro ⟨run, hrun, hsettled⟩
    exact ⟨run, (run_addRun _ hnew hrun).2, hsettled⟩

/-! ## Steps -/

/-- No run was finished while a token was held, and none is about to be. -/
structure WindowOk (s : TrackerState κ) : Prop where
  events : ∀ e ∈ s.events, e.tokens = 0
  calls : ∀ call ∈ s.calls, s.PointOk call.coordinator call.runId call.point

omit [DecidableEq κ] in
/-- A step that leaves what holds for the calls, and may start one. -/
theorem WindowOk.extend (hs : s.WindowOk) (hevents : t.events = s.events)
    (hkeep : ∀ call ∈ s.calls, t.PointOk call.coordinator call.runId call.point)
    (hcalls : ∀ call ∈ t.calls, call ∈ s.calls ∨ t.PointOk call.coordinator call.runId call.point) :
    t.WindowOk where
  events := hevents ▸ hs.events
  calls call hcall := (hcalls call hcall).elim (hkeep call) id

omit [DecidableEq κ] in
theorem WindowOk.eased (hs : s.WindowOk) (hevents : t.events = s.events) (hcalls : t.calls = s.calls)
    (heased : s.MemoryEased t) : t.WindowOk :=
  hs.extend hevents (fun call hcall => (hs.calls call hcall).eased heased) fun _ hcall =>
    .inl (hcalls ▸ hcall)

omit [DecidableEq κ] in
theorem WindowOk.call (hs : s.WindowOk) (h : s.PointOk c runId point) :
    (s.call c runId point).WindowOk := by
  have hsame : s.MemoryEased (s.call c runId point) := .of_eq rfl rfl
  refine hs.extend rfl (fun call hcall => (hs.calls call hcall).eased hsame) fun call hcall => ?_
  rcases mem_append.1 hcall with hcall | hcall
  · exact .inl hcall
  · rw [mem_singleton.1 hcall]
    exact .inr (h.eased hsame)

theorem WindowOk.next {k : ℕ} (hs : s.WindowOk) (hok : s.KeepsWindow instanceId (.next k live))
    (hstep : s.step instanceId (.next k live) = some t) : t.WindowOk := by
  simp only [step] at hstep
  split at hstep
  · next call hcall =>
    cases hstep
    have hpoint := hs.calls call (mem_of_getElem? hcall)
    have heased : s.MemoryEased (s.nextOf instanceId call.coordinator call.runId live call.point).1 :=
      hpoint.memoryEased_nextOf
    refine ⟨fun e he => ?_, fun call' hcall' => ?_⟩
    · rcases mem_events_nextOf he with he | ⟨_, _, rfl, hwrites⟩ | ⟨_, _, _, _, _, rfl, hforwards⟩
      · exact hs.events e he
      · exact hpoint.tokens_of_writes hwrites
      · exact hpoint.tokens_of_forwards hforwards
    · have hold : call' ∈ s.calls → _ := fun hmem => (hs.calls call' hmem).eased heased
      rcases mem_append.1 hcall' with hcall' | hcall'
      · rcases mem_append.1 hcall' with hcall' | hcall'
        · exact hold (mem_of_mem_take hcall')
        · obtain ⟨point', hnext, rfl⟩ := map_eq_some_iff.1 (mem_toList.1 hcall')
          exact hpoint.next hnext (hok call hcall point' hnext)
      · exact hold (mem_of_mem_drop hcall')
  · cases hstep

theorem WindowOk.step {a : TrackerAction κ} (hs : s.WindowOk) (hregisters : Registers a)
    (hok : s.KeepsWindow instanceId a) (hstep : s.step instanceId a = some t) : t.WindowOk := by
  cases a with
  | recoverRunFromDb c runId checkMode driftDetected =>
    simp only [TrackerState.step] at hstep
    split at hstep
    · next hnew _ =>
      split at hstep <;> cases hstep
      exact hs.extend rfl (fun call hcall => (hs.calls call hcall).addRun hnew rfl) fun _ hcall =>
        .inl hcall
    · cases hstep
  | setJob | deleteJob | detectDrift | setRunStatus =>
    cases hstep
    exact hs.eased modifyRun_events modifyRun_calls (memoryEased_modifyRun fun _ => ⟨le_rfl, id⟩)
  | releaseRunFinishedElsewhere c runId =>
    cases hstep
    exact hs.eased modifyRun_events modifyRun_calls
      (memoryEased_modifyRun fun _ => eases_releaseFinishedElsewhere)
  | holdRunForPendingJobs c runId =>
    have hheld : (s.modifyRun c runId (·.holdForPendingJobs)).WindowOk := by
      rw [modifyRun.eq_def]
      split
      · next ref href =>
        refine hs.extend rfl (fun call hcall => ?_) fun _ hcall => .inl hcall
        exact (hs.calls call hcall).hold (hok ref href call hcall)
      · exact hs
    simp only [TrackerState.step] at hstep
    split at hstep <;> cases hstep
    · exact hheld.call trivial
    · exact hheld
  | releasePendingJobsHold c runId =>
    simp only [TrackerState.step] at hstep
    split at hstep
    · cases hstep
      exact hs.call trivial
    · next ref href =>
      have heased : s.MemoryEased (s.modify ref (·.releaseHold)) :=
        memoryEased_modify fun _ _ => ⟨Nat.sub_le _ _, id⟩
      split at hstep
      · cases hstep
        exact hs
      · next htokens =>
        have hreleased : (s.modify ref (·.releaseHold)).WindowOk := hs.eased rfl rfl heased
        split at hstep <;> cases hstep
        · exact hreleased
        · refine hreleased.call (heased.tracks ⟨href, ?_⟩)
          -- A token was held, so the run is in memory.
          cases hrun : s.run c runId with
          | none => exact absurd (by rw [tokens, hrun]; rfl) htokens
          | some run => rfl
  | checkCompletion c runId =>
    simp only [TrackerState.step, readyToFinalize] at hstep
    split at hstep
    · cases hstep
    · next ref href =>
      split at hstep
      · next heq =>
        split at heq
        · cases heq
        · next hcomplete =>
          cases heq
          cases hstep
          refine hs.call ⟨href, ?_⟩
          rw [not_or, not_not, isRunComplete] at hcomplete
          cases hrun : s.run c runId with
          | none =>
            rw [hrun] at hcomplete
            cases hcomplete.2
          | some run => rfl
      · next heq =>
        split at heq <;> cases heq
        cases hstep
        exact hs
  | completeRunIfAllJobsTerminal c runId =>
    cases hstep
    exact hs.call trivial
  | persistJobStatus | deleteJobRow | writeRun | claimHeldGlobalEvalRound | resumeHeldRun =>
    cases hstep
    exact hs.eased rfl rfl (.of_eq rfl rfl)
  | next k live => exact hs.next hok hstep
  | onExecutionStarted | prune | onBuildFailed | failRun | recordNeverStartedRun | recordRunHeld
  | completeReleasedGlobalEvalRound | cancelHeldRun | cancelJoblessRun => exact hregisters.elim

end TrackerState

/-- No run is finished, and no end of a run forwarded, by a coordinator that holds a token for it,
as long as none is held when the parts that do not ask begin, and none taken while the
fallback finishes the run. -/
theorem no_completion_in_window {s t : TrackerState κ} (hinit : s ∈ (trackerSystem instanceId).init)
    (h : (trackerSystem instanceId).Path
      (fun s a => Registers a ∧ s.KeepsWindow instanceId a) s t) :
    ∀ e ∈ t.events, e.tokens = 0 := by
  have hstart : s.WindowOk := ⟨by simp [hinit.2], by simp [hinit.1]⟩
  exact (h.invariant hstart fun _ _ _ hs hok hstep => hs.step hok.1 hok.2 hstep).events

/-! ## Running the system -/

/-- A run whose only job was successful. -/
def onlyJobDone : List (TrackerAction String) :=
  [.onExecutionStarted "a" "run" none [{ jobId := "job", name := "test" }],
    .persistJobStatus { runId := "run", jobId := "job", jobName := "test", status := .success },
    .setJob "a" "run" { jobId := "job", name := "test", status := .success }]

/-- The state then. -/
def afterOnlyJob : TrackerState String :=
  (((trackerSystem some).run (fun _ _ => true) (runWithStatus .running) onlyJobDone).getD
    (runWithStatus .running))

/-- A test for steps in which no run is finished while a token is held. -/
def keepsWindowTest (s : TrackerState String) : TrackerAction String → Bool
  | .holdRunForPendingJobs .. => s.calls.all fun call => !call.point.fallsBack
  | .setJob .. | .persistJobStatus .. | .releasePendingJobsHold .. | .checkCompletion ..
  | .completeRunIfAllJobsTerminal .. => true
  | .next k live => (s.calls[k]?).all fun call =>
    (s.nextOf some call.coordinator call.runId live call.point).2.all fun point =>
      !point.writesEnd || s.tokens call.coordinator call.runId = 0
  | _ => false

theorem keepsWindow_of_test (s : TrackerState String) (a : TrackerAction String)
    (h : keepsWindowTest s a) : Registers a ∧ s.KeepsWindow some a := by
  cases a with
  | holdRunForPendingJobs c runId =>
    refine ⟨trivial, fun ref _ call hcall hfallsBack => ?_⟩
    have hfree := List.all_eq_true.1 h call hcall
    rw [hfallsBack] at hfree
    cases hfree
  | next k live =>
    refine ⟨trivial, fun call hcall point hpoint hends => ?_⟩
    rw [Option.mem_def] at hcall
    rw [keepsWindowTest, hcall, all_some, hpoint, all_some, hends] at h
    exact of_decide_eq_true h
  | setJob | persistJobStatus | releasePendingJobsHold | checkCompletion
  | completeRunIfAllJobsTerminal =>
    exact ⟨trivial, trivial⟩
  | _ => cases h

/-- A run that waits for the end of its window, and is finished then. -/
theorem no_completion_in_window_released : ∃ t : TrackerState String,
    .forwarded .finalizeRunCompletion "run" .success none none (some .success) 0 ∈ t.events ∧
    ∀ e ∈ t.events, e.tokens = 0 := by
  obtain ⟨t, hpath, ht⟩ := (trackerSystem some).exists_path afterOnlyJob
      (fun t => .forwarded .finalizeRunCompletion "run" .success none none (some .success) 0 ∈ t.events)
    keepsWindow_of_test
      [.holdRunForPendingJobs "a" "run", .checkCompletion "a" "run", .next 0 false,
        .releasePendingJobsHold "a" "run", .next 0 false, .next 0 false, .next 0 false, .next 0 false,
        .next 0 false, .next 0 false]
      (by decide)
  exact ⟨t, ht, no_completion_in_window ⟨by decide, by decide⟩ hpath⟩

/-- A test for steps of the registration. -/
def registersTest (_ : TrackerState String) : TrackerAction String → Bool
  | .holdRunForPendingJobs .. | .completeRunIfAllJobsTerminal .. | .next .. => true
  | _ => false

theorem registers_of_test (s : TrackerState String) (a : TrackerAction String)
    (h : registersTest s a) : Registers a := by
  cases a with
  | holdRunForPendingJobs | completeRunIfAllJobsTerminal | next => trivial
  | _ => cases h

/-- A run that the stale detector finishes while jobs are to be registered. -/
theorem exists_completion_in_window : ¬∀ (s t : TrackerState String), s ∈ (trackerSystem some).init →
    (trackerSystem some).Path (fun _ a => Registers a) s t → ∀ e ∈ t.events, e.tokens = 0 := by
  intro h
  obtain ⟨t, hpath, ht⟩ := (trackerSystem some).exists_path afterOnlyJob
      (fun t => .wrote .completeRunFromDbFallback "run" .success 1 ∈ t.events) registers_of_test
      [.holdRunForPendingJobs "a" "run", .completeRunIfAllJobsTerminal "a" "run", .next 0 false,
        .next 0 false, .next 0 false, .next 0 false, .next 0 false]
      (by decide)
  have hzero := h _ t ⟨by decide, by decide⟩ hpath _ ht
  cases hzero

end Kici
