import Kici.Sandbox.ParallelWindow
import Kici.Sandbox.StepWalk

/-!
# Groups of a single step

The compiler tells the author of a group with a single step that it runs like the step by itself.
The loop counts failures differently, though: a step by itself fails the job if it fails and has a
name, one in a group if its failure breaks the loop. So a step that fails and may
(`continueOnError`) fails the job by itself, and does not in a group
(`exists_single_child_differs`).

The two jobs have the same status, the same results, go on with the same nodes and call the same
hooks if and only if the step is not reached, or its window is not too narrow for a worker and a
failure that is counted on one side only does not matter: the job had failed under that name, or
fails later, or is aborted (`alike_iff`).
-/

namespace Kici

open ParallelNode

/-- A group of one step. -/
def ParallelNode.single (failFast : Bool) (maxParallel : Option JsNumber) (child : IndexedStep) :
    ParallelNode where
  failFast
  maxParallel
  children := [child]
  distinct := List.nodup_singleton _

namespace ParallelNode

variable {failFast : Bool} {maxParallel : Option JsNumber} {child : IndexedStep}

@[simp] theorem single_children : (single failFast maxParallel child).children = [child] := rfl

/-- The window of a group of one step is not narrower than a worker. -/
theorem limit_single (h : (single failFast maxParallel child).windowFits) :
    (single failFast maxParallel child).limit = .infinity ∨
      ∃ q : ℚ, (single failFast maxParallel child).limit = .finite q ∧ 1 ≤ q := by
  have hpos : (single failFast maxParallel child).limit = .infinity ∨
      ∃ q : ℚ, (single failFast maxParallel child).limit = .finite q ∧ 0 < q := by
    cases maxParallel with
    | none => exact .inr ⟨1, by simp [limit, single], one_pos⟩
    | some m =>
      simp only [limit, single, List.length_singleton, Nat.cast_one]
      split_ifs with hm
      · cases m with
        | finite q => exact .inr ⟨q, rfl, by simpa [JsNumber.isPositive] using hm.2⟩
        | infinity => exact .inl rfl
        | negInfinity => simp [JsNumber.isPositive] at hm
        | nan => simp [JsNumber.isTruthy] at hm
      · exact .inr ⟨1, rfl, one_pos⟩
  refine hpos.imp_right ?_
  rintro ⟨q, hlimit, hq⟩
  refine ⟨q, hlimit, ?_⟩
  rcases h q hlimit with hwhole | hlength
  · -- a whole number that is not 0
    rw [hwhole] at hq ⊢
    exact_mod_cast Nat.one_le_iff_ne_zero.2 (Nat.cast_pos.1 hq).ne'
  · simpa [single] using hlength

/-- The step is started by the first worker, the only one. -/
theorem start_single (h : (single failFast maxParallel child).windowFits) :
    (single failFast maxParallel child).start = .ok {
      cursor := 1
      results := [none]
      inFlight := [child.stepIndex]
      awaiting := [0]
      log := [.launch 0] } := by
  have hstart : (single failFast maxParallel child).pendingPlaces = .ok [] ∧
      (single failFast maxParallel child).workers = 1 := by
    rcases limit_single h with hlimit | ⟨q, hlimit, hq⟩
    · simp [pendingPlaces, workers, hlimit]
    · have hfloor : 1 ≤ ⌊q⌋₊ := Nat.le_floor (by exact_mod_cast hq)
      simp [pendingPlaces, workers, hlimit, hq, hfloor]
  simp [start, hstart, bind, Except.bind, pure, Except.pure, worker, work, initial, launchNext]

end ParallelNode

namespace StepWalk

/-- Two ends of a job are alike: it throws both times, or has the same status and results, has
walked the same steps, and has called the same hooks. -/
def Alike : Option StepLoopReturn → Option StepLoopReturn → Prop
  | some r, some r' =>
    r.status = r'.status ∧ r.stepResults = r'.stepResults ∧ r.walked = r'.walked ∧ r.calls = r'.calls
  | none, none => True
  | _, _ => False

theorem Alike.refl : ∀ r, Alike r r
  | some _ => ⟨rfl, rfl, rfl, rfl⟩
  | none => trivial

/-- The first hook that is called at the end of a job. -/
def firstHook (hooks : JobHooks) (failed : Bool) : Option CompletionHook :=
  if failed = false ∧ hooks.onSuccess = true then some .onSuccess
  else if failed = true ∧ hooks.onFailure = true then some .onFailure
  else if hooks.cleanup = true then some .cleanup
  else none

/-- Two states of a job are alike for its hooks: both have failed or none has, and a hook, if one is
called, is told the same name. -/
def AlikeFor (hooks : JobHooks) (c c' : CompletionState) : Prop :=
  c.failed = c'.failed ∧
    (firstHook hooks c.failed ≠ none → truthyText c.failedStepName = truthyText c'.failedStepName)

theorem AlikeFor.refl (hooks : JobHooks) (c : CompletionState) : AlikeFor hooks c c :=
  ⟨rfl, fun _ => rfl⟩

theorem alikeFor_comm {hooks : JobHooks} {c c' : CompletionState} : AlikeFor hooks c c' ↔
    AlikeFor hooks c' c := by
  unfold AlikeFor
  constructor
  · rintro ⟨hfailed, hname⟩
    exact ⟨hfailed.symm, fun hhook => (hname (hfailed ▸ hhook)).symm⟩
  · rintro ⟨hfailed, hname⟩
    exact ⟨hfailed.symm, fun hhook => (hname (hfailed ▸ hhook)).symm⟩

namespace StepRuntime

variable {σ : Type} (rt : StepRuntime σ)

/-! ## When they are alike -/

/-- The state and the world in which the walk comes past nodes, if it does. -/
def comesPast : List StepNode → WalkState → σ → Option (WalkState × σ)
  | [], s, w => some (s, w)
  | node :: nodes, s, w =>
    if rt.isAborted w then none
    else
      (rt.runNode node w).bind fun (outcome, w) =>
        if outcome.breaks then none else comesPast nodes (s.record node outcome) w

/-- A node that is reached throws. -/
def Throws : List StepNode → σ → Prop
  | [], _ => False
  | node :: nodes, w => rt.isAborted w = false ∧
      ∀ outcome w', rt.runNode node w = some (outcome, w') → outcome.breaks = false ∧ Throws nodes w'

/-- It does not matter any more whether the job has failed before: a node that is reached fails it,
or throws, or the job is aborted in the end. -/
def Overrides : List StepNode → σ → Prop
  | [], w => rt.isAborted w = true
  | node :: nodes, w => rt.isAborted w = true ∨
      ∀ outcome w', rt.runNode node w = some (outcome, w') →
        outcome.failed = true ∨ if outcome.breaks then rt.isAborted w' = true else Overrides nodes w'

/-- The step, and the group of the step, lead to the same end of the job from where they are
reached. -/
def MayBeGrouped (hooks : JobHooks) (group : ParallelNode) (child : IndexedStep) (after : List StepNode)
    (s : WalkState) (w : σ) : Prop :=
  (group.windowFits ∨ rt.Throws (.sequential child :: after) w) ∧
    ∀ outcome w', rt.iterate child w = some (outcome, w') → outcome.failedStepName ≠ none →
      (child.step.name ≠ "" ↔ outcome.shouldBreak = true) ∨
        AlikeFor hooks s.state { s.state with failed := true, failedStepName := some child.step.name } ∨
        rt.Overrides (if outcome.shouldBreak then [] else after) w'

/-! ## The hooks -/

section Hooks

variable {opts : StepLoopOptions} {startTime : ℕ} {c c' : CompletionState} {w : σ}
  {run run' : CompletionRun σ}

/-- Hooks have run alike so far; only the names may differ. -/
structure RanAlike (run run' : CompletionRun σ) : Prop where
  failed : run.state.failed = run'.state.failed
  failureReason : run.state.failureReason = run'.state.failureReason
  calls : run.calls = run'.calls
  world : run.world = run'.world

theorem RanAlike.runCompletionHook (h : RanAlike run run') (call : HookCall) (promoteToFailed : Bool) :
    RanAlike (rt.runCompletionHook call promoteToFailed run)
    (rt.runCompletionHook call promoteToFailed run') := by
  unfold StepRuntime.runCompletionHook
  rw [← h.world]
  cases rt.executeHook call run.world with
  | mk error w =>
    cases error with
    | none => exact ⟨h.failed, h.failureReason, by simp only [h.calls], rfl⟩
    | some error => exact
      ⟨by simp only [h.failed], by simp only [h.failureReason], by simp only [h.calls], rfl⟩

@[simp] theorem runCompletionHook_failedStepName (call : HookCall) (promoteToFailed : Bool) :
    (rt.runCompletionHook call promoteToFailed run).state.failedStepName = run.state.failedStepName := by
  unfold runCompletionHook
  split <;> rfl

theorem runCompletionHook_calls (call : HookCall) (promoteToFailed : Bool) :
    (rt.runCompletionHook call promoteToFailed run).calls = run.calls ++ [call] := by
  unfold runCompletionHook
  split <;> rfl

@[simp] theorem runOutcomeHook_failedStepName :
    (rt.runOutcomeHook opts startTime c w).state.failedStepName = c.failedStepName := by
  unfold runOutcomeHook
  dsimp only
  split_ifs <;> simp

/-- Without hooks nothing happens. -/
theorem runJobCompletionHooks_of_firstHook (h : firstHook opts.jobHooks c.failed = none) :
    rt.runJobCompletionHooks opts startTime c w = { state := c, world := w } := by
  unfold firstHook at h
  split_ifs at h with hsuccess hfailure hcleanup
  rw [runJobCompletionHooks, if_neg hcleanup, runOutcomeHook, if_neg hsuccess, if_neg hfailure]

/-- The first hook is told of the state at the end of the walk. -/
theorem head?_calls (opts : StepLoopOptions) (startTime : ℕ) (c : CompletionState) (w : σ) : ∃ reason,
    (rt.runJobCompletionHooks opts startTime c w).calls.head? =
    (firstHook opts.jobHooks c.failed).map fun hook =>
      ⟨hook, opts.stepsLength, buildOutcomeMetadata c reason (rt.stepOutputs w)
        (rt.now w - startTime)⟩ := by
  let reason := (truthyText c.failedStepName).map fun name => s!"Step '{name}' failed"
  unfold firstHook runJobCompletionHooks runOutcomeHook
  by_cases hsuccess : c.failed = false ∧ opts.jobHooks.onSuccess = true
  · refine ⟨reason, ?_⟩
    simp only [if_pos hsuccess]
    split_ifs <;> simp [runCompletionHook_calls, reason]
  by_cases hfailure : c.failed = true ∧ opts.jobHooks.onFailure = true
  · refine ⟨reason, ?_⟩
    simp only [if_neg hsuccess, if_pos hfailure]
    split_ifs <;> simp [runCompletionHook_calls, reason]
  · refine ⟨truthyText c.failureReason, ?_⟩
    simp only [if_neg hsuccess, if_neg hfailure]
    split_ifs <;> simp [runCompletionHook_calls]

/-- From states that are alike the same hooks are called, and the job fails both times, or none. -/
theorem AlikeFor.ranAlike (h : AlikeFor opts.jobHooks c c')
    (hreason : c.failureReason = c'.failureReason) (startTime : ℕ) (w : σ) :
    RanAlike (rt.runJobCompletionHooks opts startTime c w)
    (rt.runJobCompletionHooks opts startTime c' w) := by
  by_cases hhook : firstHook opts.jobHooks c.failed = none
  · rw [rt.runJobCompletionHooks_of_firstHook hhook, rt.runJobCompletionHooks_of_firstHook (h.1 ▸ hhook)]
    exact ⟨h.1, hreason, rfl, rfl⟩
  have hname := h.2 hhook
  have houtcome : RanAlike (rt.runOutcomeHook opts startTime c w)
    (rt.runOutcomeHook opts startTime c' w) := by
    have hstart : RanAlike ({ state := c, world := w } : CompletionRun σ) { state := c', world := w } :=
      ⟨h.1, hreason, rfl, rfl⟩
    unfold runOutcomeHook buildOutcomeMetadata
    dsimp only
    rw [← h.1, ← hname]
    split_ifs
    · exact hstart.runCompletionHook rt _ _
    · exact hstart.runCompletionHook rt _ _
    · exact hstart
  unfold runJobCompletionHooks buildOutcomeMetadata
  dsimp only
  rw [runOutcomeHook_failedStepName, runOutcomeHook_failedStepName, ← houtcome.failed,
    ← houtcome.failureReason, ← houtcome.calls, ← houtcome.world, ← hname]
  split_ifs
  · exact houtcome.runCompletionHook rt _ _
  · exact houtcome

/-- The hooks tell states apart that are not alike. -/
theorem alikeFor_of_calls
    (hcalls : (rt.runJobCompletionHooks opts startTime c w).calls =
      (rt.runJobCompletionHooks opts startTime c' w).calls)
    (hfailed : (rt.runJobCompletionHooks opts startTime c w).state.failed =
      (rt.runJobCompletionHooks opts startTime c' w).state.failed) : AlikeFor opts.jobHooks c c' := by
  obtain ⟨reason, hhead⟩ := rt.head?_calls opts startTime c w
  obtain ⟨reason', hhead'⟩ := rt.head?_calls opts startTime c' w
  rw [← hcalls, hhead] at hhead'
  cases hhook : firstHook opts.jobHooks c.failed with
  | none =>
    cases hhook' : firstHook opts.jobHooks c'.failed with
    | none =>
      rw [rt.runJobCompletionHooks_of_firstHook hhook,
        rt.runJobCompletionHooks_of_firstHook hhook'] at hfailed
      exact ⟨hfailed, fun hsome => absurd hhook hsome⟩
    | some hook' => simp [hhook, hhook'] at hhead'
  | some hook =>
    cases hhook' : firstHook opts.jobHooks c'.failed with
    | none => simp [hhook, hhook'] at hhead'
    | some hook' =>
      simp only [hhook, hhook', Option.map_some, Option.some.injEq, HookCall.mk.injEq,
        buildOutcomeMetadata, OutcomeMetadata.mk.injEq] at hhead'
      exact ⟨hhead'.2.2.1, fun _ => hhead'.2.2.2.2.1⟩

end Hooks

/-! ## The walk -/

section Walk

variable {opts : StepLoopOptions} {startTime : ℕ} {nodes rest : List StepNode} {s s' : WalkState} {w : σ}

/-- Two walks have walked the same steps, with the same results; the one may have failed where the
other has not. -/
structure WalkedAlike (s s' : WalkState) : Prop where
  stepResults : s.stepResults = s'.stepResults
  walked : s.walked = s'.walked
  failureReason : s.state.failureReason = s'.state.failureReason

theorem WalkedAlike.record (h : WalkedAlike s s') (node : StepNode) (outcome : NodeOutcome) :
    WalkedAlike (s.record node outcome) (s'.record node outcome) where
  stepResults := by simp only [WalkState.record, h.stepResults]
  walked := by simp only [WalkState.record, h.walked]
  failureReason := by
    simp only [WalkState.record]
    split <;> exact h.failureReason

/-- A node that fails the job takes the place of what has failed before. -/
theorem alikeFor_record_iff (hooks : JobHooks) (node : StepNode) (outcome : NodeOutcome) :
    AlikeFor hooks (s.record node outcome).state (s'.record node outcome).state ↔
      outcome.failed = true ∨ AlikeFor hooks s.state s'.state := by
  cases hfailed : outcome.failed with
  | false => simp [WalkState.record, hfailed]
  | true => simp [WalkState.record, hfailed, AlikeFor]

theorem alike_finish_iff (h : WalkedAlike s s') :
    Alike (some (rt.finish opts startTime s w)) (some (rt.finish opts startTime s' w)) ↔
      rt.isAborted w = true ∨ AlikeFor opts.jobHooks s.state s'.state := by
  by_cases haborted : rt.isAborted w = true
  · rw [finish, finish, if_pos haborted, if_pos haborted]
    exact ⟨fun _ => .inl haborted, fun _ => ⟨rfl, h.stepResults, h.walked, rfl⟩⟩
  rw [finish, finish, if_neg haborted, if_neg haborted]
  constructor
  · rintro ⟨hstatus, -, -, hcalls⟩
    refine .inr (rt.alikeFor_of_calls hcalls ?_)
    dsimp only at hstatus
    split_ifs at hstatus with hfailed hfailed' hfailed'
    · rw [hfailed, hfailed']
    · rw [Bool.eq_false_of_not_eq_true hfailed, Bool.eq_false_of_not_eq_true hfailed']
  · intro halike
    have hran := AlikeFor.ranAlike rt (halike.resolve_left haborted) h.failureReason startTime w
    exact ⟨by dsimp only; rw [hran.failed], h.stepResults, h.walked, hran.calls⟩

theorem walk_cons {node : StepNode} {outcome : NodeOutcome} {w' : σ} (haborted : ¬rt.isAborted w = true)
    (hnode : rt.runNode node w = some (outcome, w')) : rt.walk (node :: nodes) s w =
      if outcome.breaks then some (s.record node outcome, w')
      else rt.walk nodes (s.record node outcome) w' := by
  rw [walk, if_neg haborted, hnode, Option.bind_some]

theorem overrides_cons {node : StepNode} {outcome : NodeOutcome} {w' : σ}
    (haborted : ¬rt.isAborted w = true)
    (hnode : rt.runNode node w = some (outcome, w')) : rt.Overrides (node :: nodes) w ↔
      outcome.failed = true ∨ if outcome.breaks then rt.isAborted w' = true
      else rt.Overrides nodes w' := by
  rw [Overrides, or_iff_right haborted]
  constructor
  · exact fun h => h outcome w' hnode
  · rintro h outcome' w'' hnode'
    obtain ⟨rfl, rfl⟩ := Prod.mk.inj (Option.some.inj (hnode.symm.trans hnode'))
    exact h

/-- Walks that differ in what has failed come to ends that are alike if and only if that does not
matter, to the hooks or for what comes after. -/
theorem alike_walk_iff (h : WalkedAlike s s') :
    Alike ((rt.walk nodes s w).map fun (s, w) => rt.finish opts startTime s w)
        ((rt.walk nodes s' w).map fun (s, w) => rt.finish opts startTime s w) ↔
      AlikeFor opts.jobHooks s.state s'.state ∨ rt.Overrides nodes w := by
  induction nodes generalizing s s' w with
  | nil => rw [walk, walk, Option.map_some, Option.map_some, rt.alike_finish_iff h, Overrides, or_comm]
  | cons node nodes ih =>
    by_cases haborted : rt.isAborted w = true
    · rw [walk, walk, if_pos haborted, if_pos haborted, Option.map_some, Option.map_some,
        rt.alike_finish_iff h]
      simp only [Overrides, haborted, true_or, or_true]
    cases hnode : rt.runNode node w with
    | none => simp [walk, Overrides, haborted, hnode, Alike]
    | some p =>
      obtain ⟨outcome, w₁⟩ := p
      have hrecord := h.record node outcome
      rw [rt.overrides_cons haborted hnode, rt.walk_cons haborted hnode, rt.walk_cons haborted hnode]
      by_cases hbreaks : outcome.breaks = true
      · rw [if_pos hbreaks, if_pos hbreaks, if_pos hbreaks, Option.map_some, Option.map_some,
          rt.alike_finish_iff hrecord, alikeFor_record_iff]
        tauto
      · rw [if_neg hbreaks, if_neg hbreaks, if_neg hbreaks, ih hrecord, alikeFor_record_iff]
        tauto

/-- A walk throws if and only if a node does that it reaches. -/
theorem walk_eq_none_iff : rt.walk nodes s w = none ↔ rt.Throws nodes w := by
  induction nodes generalizing s w with
  | nil => simp [walk, Throws]
  | cons node nodes ih =>
    by_cases haborted : rt.isAborted w = true
    · simp [walk, Throws, haborted]
    rw [walk, if_neg haborted, Throws]
    cases hnode : rt.runNode node w with
    | none => simp [haborted]
    | some p =>
      obtain ⟨outcome, w₁⟩ := p
      by_cases hbreaks : outcome.breaks = true
      · simp [hbreaks]
      · simp [hbreaks, haborted, ih]

theorem Throws.overrides (h : rt.Throws nodes w) : rt.Overrides nodes w := by
  induction nodes generalizing w with
  | nil => exact h.elim
  | cons node nodes ih =>
    refine .inr fun outcome w' hnode => .inr ?_
    obtain ⟨hbreaks, hthrows⟩ := h.2 outcome w' hnode
    rw [hbreaks]
    exact ih hthrows

/-- What is walked after nodes, if the walk comes past them. -/
theorem walk_append : rt.walk (nodes ++ rest) s w =
    match rt.comesPast nodes s w with
    | some (s, w) => rt.walk rest s w
    | none => rt.walk nodes s w := by
  induction nodes generalizing s w with
  | nil => rfl
  | cons node nodes ih =>
    rw [List.cons_append, walk, walk, comesPast]
    by_cases haborted : rt.isAborted w = true
    · simp only [if_pos haborted]
    simp only [if_neg haborted]
    cases rt.runNode node w with
    | none => rfl
    | some p =>
      obtain ⟨outcome, w₁⟩ := p
      simp only [Option.bind_some]
      by_cases hbreaks : outcome.breaks = true
      · simp only [if_pos hbreaks]
      · simp only [if_neg hbreaks]
        exact ih

end Walk

/-! ## The step and its group -/

section Single

variable {opts : StepLoopOptions} {startTime : ℕ} {after : List StepNode} {s : WalkState} {w : σ}
  {failFast : Bool} {maxParallel : Option JsNumber} {child : IndexedStep}
    {outcome : StepIterationOutcome}
  {happening : StepHappening}

/-- Only a failure breaks the loop, and it has the name of the step. -/
def NamesFailure (child : IndexedStep) (outcome : StepIterationOutcome) : Prop :=
  outcome.failedStepName = some child.step.name ∨ outcome.failedStepName = none ∧
    outcome.shouldBreak = false

theorem namesFailure_of_rules
    (h : child.evaluateStepRulesAndMaybeSkip happening = some outcome) : NamesFailure child outcome := by
  unfold IndexedStep.evaluateStepRulesAndMaybeSkip at h
  split_ifs at h
  split at h
  · exact absurd h (by simp)
  · exact .inl (Option.some.inj h ▸ rfl)
  · exact .inr (Option.some.inj h ▸ ⟨rfl, rfl⟩)

theorem namesFailure_of_gate
    (h : child.maybeGateStepApproval happening = some outcome) : NamesFailure child outcome := by
  unfold IndexedStep.maybeGateStepApproval at h
  split_ifs at h
  exact .inl (Option.some.inj h ▸ rfl)

theorem namesFailure_of_runStepIteration
    (h : child.runStepIteration happening = some outcome) : NamesFailure child outcome := by
  unfold IndexedStep.runStepIteration at h
  split_ifs at h
  split at h
  · rename_i hrules
    exact namesFailure_of_rules (hrules.trans h)
  split at h
  · rename_i hgate
    exact namesFailure_of_gate (hgate.trans h)
  · obtain ⟨status, -, rfl⟩ := Option.map_eq_some_iff.1 h
    split_ifs
    · exact .inl rfl
    · exact .inr ⟨rfl, rfl⟩

/-- What the step by itself makes of its outcome. -/
def sequentialOutcome (outcome : StepIterationOutcome) : NodeOutcome where
  results := [some outcome.result]
  failed := (truthyText outcome.failedStepName).isSome
  failedStepName := outcome.failedStepName
  breaks := outcome.shouldBreak

/-- What the group makes of it. -/
def groupOutcome (child : IndexedStep) (outcome : StepIterationOutcome) : NodeOutcome where
  results := [some outcome.result]
  failed := outcome.shouldBreak
  failedStepName := if outcome.shouldBreak then some (outcome.failedStepName.getD child.step.name)
    else none
  breaks := outcome.shouldBreak

/-- A group of one step ends like the step by itself, but for what it counts as a failure. -/
theorem runNode_single (h : (single failFast maxParallel child).windowFits) :
    rt.runNode (.parallel (.single failFast maxParallel child)) w =
      (rt.iterate child w).map fun (outcome, w) => (groupOutcome child outcome, w) := by
  rw [runNode, runParallelGroup, start_single h]
  have hplace : [0].filterMap (fun i => ([child][i]?).map (i, ·)) = [(0, child)] := rfl
  simp only [single_children, List.length_singleton, settleAll, iterate, hplace, List.map_nil]
  -- a place that is not there means the first one
  have hget : ∀ k, [(0, child)].getD k (0, child) = (0, child) := fun k => by cases k <;> rfl
  simp only [hget]
  cases child.runStepIteration (rt.settle child [] w).1.2 with
  | none => rfl
  | some outcome =>
    cases hbreaks : outcome.shouldBreak with
    | false | true => simp [ParallelNode.worker, ParallelNode.work, ParallelNode.settle,
      groupOutcome, hbreaks]

/-- A group whose window is narrower than a worker throws. -/
theorem runNode_single_eq_none (h : ¬(single failFast maxParallel child).windowFits) :
    rt.runNode (.parallel (.single failFast maxParallel child)) w = none := by
  rw [← start_isOk_iff] at h
  cases hstart : (single failFast maxParallel child).start with
  | error => simp [runNode, runParallelGroup, hstart]
  | ok s => exact absurd ⟨s, hstart⟩ h

/-- A failure is counted alike by itself and in the group if it has a name exactly if it breaks the
loop, or if the job has failed before. -/
theorem alikeFor_outcomes_iff {hooks : JobHooks}
    (hname : outcome.failedStepName = some child.step.name) :
    AlikeFor hooks (s.record (.sequential child) (sequentialOutcome outcome)).state
        (s.record (.parallel (.single failFast maxParallel child)) (groupOutcome child outcome)).state ↔
      (child.step.name ≠ "" ↔ outcome.shouldBreak = true) ∨
        AlikeFor hooks s.state
        { s.state with failed := true, failedStepName := some child.step.name } := by
  have hgroup : (s.record (.parallel (.single failFast maxParallel child))
    (groupOutcome child outcome)).state =
      if outcome.shouldBreak then { s.state with failed := true, failedStepName := some child.step.name }
      else s.state := by
    cases hbreaks : outcome.shouldBreak <;> simp [WalkState.record, groupOutcome, hname, hbreaks]
  have hsequential : (s.record (.sequential child) (sequentialOutcome outcome)).state =
      if child.step.name ≠ "" then
        { s.state with failed := true, failedStepName := some child.step.name }
      else s.state := by
    by_cases hempty : child.step.name = "" <;>
      simp [WalkState.record, sequentialOutcome, truthyText, Option.filter, hname, hempty]
  rw [hgroup, hsequential]
  by_cases hnamed : child.step.name ≠ ""
  · by_cases hbreaks : outcome.shouldBreak = true
    · rw [if_pos hnamed, if_pos hbreaks]
      exact ⟨fun _ => .inl (iff_of_true hnamed hbreaks), fun _ => .refl _ _⟩
    · rw [if_pos hnamed, if_neg hbreaks, alikeFor_comm]
      exact ⟨.inr, fun h => h.resolve_left fun hiff => hbreaks (hiff.1 hnamed)⟩
  · by_cases hbreaks : outcome.shouldBreak = true
    · rw [if_neg hnamed, if_pos hbreaks]
      exact ⟨.inr, fun h => h.resolve_left fun hiff => hnamed (hiff.2 hbreaks)⟩
    · rw [if_neg hnamed, if_neg hbreaks]
      exact ⟨fun _ => .inl (iff_of_false hnamed hbreaks), fun _ => .refl _ _⟩

/-- Once the step is over, the jobs end alike if and only if its failure is counted alike or does
not matter. -/
theorem alike_outcome_iff (h : NamesFailure child outcome) :
    Alike ((if outcome.shouldBreak then some
      (s.record (.sequential child) (sequentialOutcome outcome), w)
          else rt.walk after (s.record (.sequential child) (sequentialOutcome outcome)) w).map
          fun (s, w) =>
            rt.finish opts startTime s w)
        ((if outcome.shouldBreak then
            some (s.record (.parallel (.single failFast maxParallel child))
              (groupOutcome child outcome), w)
          else rt.walk after
          (s.record (.parallel (.single failFast maxParallel child)) (groupOutcome child outcome))
          w).map
            fun (s, w) => rt.finish opts startTime s w) ↔
      (outcome.failedStepName ≠ none → (child.step.name ≠ "" ↔ outcome.shouldBreak = true) ∨
        AlikeFor opts.jobHooks s.state
        { s.state with failed := true, failedStepName := some child.step.name } ∨
        rt.Overrides (if outcome.shouldBreak then [] else after) w) := by
  have hwalked : WalkedAlike (s.record (.sequential child) (sequentialOutcome outcome))
      (s.record (.parallel (.single failFast maxParallel child)) (groupOutcome child outcome)) := by
    refine ⟨rfl, rfl, ?_⟩
    simp only [WalkState.record]
    split_ifs <;> rfl
  rcases h with hname | ⟨hname, hbreaks⟩
  · rw [forall_prop_of_true (hname ▸ Option.some_ne_none _), ← or_assoc, ← alikeFor_outcomes_iff hname]
    by_cases hbreaks : outcome.shouldBreak = true
    · rw [if_pos hbreaks, if_pos hbreaks, if_pos hbreaks, Option.map_some, Option.map_some,
        rt.alike_finish_iff hwalked, or_comm, Overrides]
    · rw [if_neg hbreaks, if_neg hbreaks, if_neg hbreaks, rt.alike_walk_iff hwalked]
  · -- nothing has failed
    have hsame : groupOutcome child outcome = sequentialOutcome outcome := by
      simp [groupOutcome, sequentialOutcome, truthyText, hname, hbreaks]
    rw [hsame]
    exact iff_of_true (Alike.refl _) fun hsome => absurd hname hsome

/-- From a node that is reached, the step by itself and its group lead to ends that are alike if and
only if the step may be grouped. -/
theorem alike_node_iff (haborted : ¬rt.isAborted w = true) :
    Alike ((rt.walk (.sequential child :: after) s w).map fun (s, w) => rt.finish opts startTime s w)
        ((rt.walk (.parallel (.single failFast maxParallel child) :: after) s w).map fun (s, w) =>
          rt.finish opts startTime s w) ↔
      rt.MayBeGrouped opts.jobHooks (.single failFast maxParallel child) child after s w := by
  by_cases hfits : (single failFast maxParallel child).windowFits
  swap
  · -- the group throws
    have hgroup : rt.walk (.parallel (.single failFast maxParallel child) :: after) s w = none := by
      rw [walk, if_neg haborted, rt.runNode_single_eq_none hfits, Option.bind_none]
    have halike : ∀ r, Alike r none ↔ r = none := fun r => by cases r <;> simp [Alike]
    rw [hgroup, Option.map_none, halike, Option.map_eq_none_iff, walk_eq_none_iff, MayBeGrouped,
      or_iff_right hfits]
    refine ⟨fun hthrows => ⟨hthrows, fun outcome w' hiterate _ => .inr (.inr ?_)⟩, And.left⟩
    obtain ⟨hbreaks, hafter⟩ :=
      hthrows.2 (sequentialOutcome outcome) w' (by simp [runNode, hiterate, sequentialOutcome])
    rw [show outcome.shouldBreak = false from hbreaks]
    exact hafter.overrides rt
  rw [MayBeGrouped]
  cases hiterate : rt.iterate child w with
  | none =>
    have hnode : rt.runNode (.sequential child) w = none := by rw [runNode, hiterate, Option.map_none]
    have hgroup : rt.runNode (.parallel (.single failFast maxParallel child)) w = none := by
      rw [rt.runNode_single hfits, hiterate, Option.map_none]
    simp [walk, haborted, hnode, hgroup, Alike, hfits]
  | some p =>
    obtain ⟨outcome, w'⟩ := p
    have hnode : rt.runNode (.sequential child) w = some (sequentialOutcome outcome, w') := by
      rw [runNode, hiterate, Option.map_some]
      rfl
    have hgroup : rt.runNode (.parallel (.single failFast maxParallel child)) w =
        some (groupOutcome child outcome, w') := by
      rw [rt.runNode_single hfits, hiterate, Option.map_some]
    have hnames : NamesFailure child outcome := by
      obtain ⟨outcome', houtcome, heq⟩ := Option.map_eq_some_iff.1 hiterate
      exact (Prod.mk.inj heq).1 ▸ namesFailure_of_runStepIteration houtcome
    rw [rt.walk_cons haborted hnode, rt.walk_cons haborted hgroup, and_iff_right (.inl hfits)]
    refine (rt.alike_outcome_iff hnames).trans ?_
    constructor
    · rintro h outcome' w'' hiterate'
      obtain ⟨rfl, rfl⟩ := Prod.mk.inj (Option.some.inj hiterate')
      exact h
    · exact fun h => h outcome w' rfl

/-- The end of the loop looks at the number of the steps only, not at how they are grouped. -/
theorem finish_congr {opts' : StepLoopOptions} (hhooks : opts.jobHooks = opts'.jobHooks)
    (hlength : opts.stepsLength = opts'.stepsLength) :
    rt.finish opts startTime s w = rt.finish opts' startTime s w := by
  unfold finish runJobCompletionHooks runOutcomeHook
  rw [hhooks, hlength]

/-- A job with a step by itself, and the job with the step in a group of its own, have the same
status, the same results, walk the same steps and call the same hooks, or throw both, if and only if
the step may be grouped where it is reached. -/
theorem alike_iff (rt : StepRuntime σ) (opts : StepLoopOptions) (before after : List StepNode)
    (child : IndexedStep) (failFast : Bool) (maxParallel : Option JsNumber) (w : σ) :
    Alike (rt.executeStepLoop { opts with nodes := before ++ .sequential child :: after } w)
        (rt.executeStepLoop
          { opts with nodes := before ++ .parallel (.single failFast maxParallel child) :: after } w) ↔
      ∀ s w', rt.comesPast before { state := { failed := opts.forceInitialFailure } } w = some (s, w') →
        rt.isAborted w' = false →
        rt.MayBeGrouped opts.jobHooks (.single failFast maxParallel child) child after s w' := by
  have hfinish : ∀ s w', rt.finish
      { opts with nodes := before ++ .parallel (.single failFast maxParallel child) :: after }
      (opts.startTime.getD (rt.now w)) s w' = rt.finish
        { opts with nodes := before ++ .sequential child :: after }
      (opts.startTime.getD (rt.now w)) s w' :=
    fun s w' => rt.finish_congr rfl (by simp [StepLoopOptions.stepsLength, StepNode.steps])
  simp only [executeStepLoop, hfinish, walk_append]
  cases hpast : rt.comesPast before { state := { failed := opts.forceInitialFailure } } w with
  | none =>
    -- the step is not reached
    exact iff_of_true (Alike.refl _) nofun
  | some p =>
    obtain ⟨s, w'⟩ := p
    by_cases haborted : rt.isAborted w' = true
    · simp only [walk, if_pos haborted]
      refine iff_of_true (Alike.refl _) ?_
      rintro s' w'' heq hlive
      obtain ⟨rfl, rfl⟩ := Prod.mk.inj (Option.some.inj heq)
      exact absurd haborted (by simp [hlive])
    · refine (rt.alike_node_iff haborted).trans ?_
      constructor
      · rintro h s' w'' heq -
        obtain ⟨rfl, rfl⟩ := Prod.mk.inj (Option.some.inj heq)
        exact h
      · exact fun h => h s w' rfl (Bool.eq_false_of_not_eq_true haborted)

end Single

/-- A step that fails and may is the only one of a job: by itself it fails the job, in a group it
does not. -/
theorem exists_single_child_differs : ∃ (rt : StepRuntime Unit) (child : IndexedStep),
    (rt.executeStepLoop { nodes := [.sequential child] } ()).map (·.status) = some .failed ∧
    (rt.executeStepLoop { nodes := [.parallel (.single true none child)] } ()).map (·.status) =
    some .success := by
  let rt : StepRuntime Unit := {
    isAborted := fun _ => false
    settle := fun _ _ w => ((0, { attempt := fun _ => .failed, retryIf := fun _ => true }), w)
    abortStep := fun _ w => w
    executeHook := fun _ w => (none, w)
    now := fun _ => 0
    stepOutputs := fun _ => .undefined }
  exact ⟨rt, ⟨{ name := "lint", continueOnError := true }, 0⟩, rfl, rfl⟩

end StepRuntime

end StepWalk

end Kici
