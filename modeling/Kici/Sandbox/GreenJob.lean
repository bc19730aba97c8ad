import Kici.Foundation.Except
import Kici.Sandbox.StepLoop

/-!
# Green jobs

A timeout aborts the signal of its step, and nothing makes a new one for the next attempt. So an
attempt after one that timed out is cancelled as it starts, and the loop, which looks for steps that
failed, goes on: the job is green without the step (`exists_green_cancelled`).

As long as no attempt starts on an aborted signal, unless its body settles at once, the deadline of
the job is over or its group has failed (`StartsLive`), the steps of a green job have all succeeded
or were skipped, but for those that may fail, and while the loop goes on no step that must not fail
has (`green_of_success`).
-/

namespace Kici

open List StepSlot StepLoopState SandboxStepResult NodeRun System

/-- The last attempt of the step, or the step without an attempt, succeeded or was skipped. -/
def SandboxStepResult.Green (r : SandboxStepResult) : Prop :=
  r.attempts.getLast?.getD r.status ∈ [ExecutionStepStatus.success, .skipped]

/-- The step is green, or has failed and may. -/
def SandboxStepResult.Passed (r : SandboxStepResult) : Prop :=
  r.Green ∨ r.status = .failed ∧ r.child.step.continueOnError = true

/-- No attempt starts on an aborted signal, unless its body settles at once, the deadline of the job
is over, or the group of the step has failed. -/
def StartsLive (s : StepLoopState) (a : StepLoopAction) : Prop :=
  ∀ i retryIf, a = .step i (.start none retryIf) → ∀ run ∈ s.run, ∀ slot ∈ run.slots[i]?,
    slot.aborted = true →
    s.jobDeadline = true ∨ run.failed = true

/-! ## One step -/

namespace StepSlot

variable {slot slot' : StepSlot} {n : ℕ} {status : ExecutionStepStatus} {deadline retryIf : Bool}
  {action : StepSlotAction}

/-- The result of the step, if it has the status. -/
def result (slot : StepSlot) (status : ExecutionStepStatus) : SandboxStepResult :=
  ⟨slot.child, status, slot.attempts⟩

/-- A step of a group that has not failed: it races on a live signal, and once it is over it is
green, or has failed and may, unless it is to break the loop. -/
structure Sound (slot : StepSlot) : Prop where
  fresh : slot.point ∈ [StepPoint.waiting, .rules, .approval] → slot.attempts = []
  race : ∀ n, slot.point = .race n → slot.aborted = false
  after : ∀ status, slot.point = .after status false → (slot.result status).Passed
  finished : ∀ status, slot.point = .finished status → (slot.result status).Passed

/-- A step that has not begun is sound. -/
theorem sound_of_fresh (hpoint : slot.point ∈ [StepPoint.waiting, .rules, .approval])
    (hattempts : slot.attempts = []) : slot.Sound := by
  refine ⟨fun _ => hattempts, fun n h => ?_, fun status h => ?_, fun status h => ?_⟩ <;>
    rw [h] at hpoint <;> simp at hpoint

/-- A step at an attempt, or after a timeout, is sound. -/
theorem sound_of_attempt (hpoint : slot.point = .attempt n ∨ slot.point = .grace n) : slot.Sound := by
  refine ⟨fun h => ?_, fun m h => ?_, fun status h => ?_, fun status h => ?_⟩ <;>
    rcases hpoint with hpoint | hpoint <;> rw [hpoint] at h
  · simp at h
  · simp at h
  all_goals cases h

/-- A step that is over is sound, if it has passed or is to break the loop. -/
theorem sound_of_after {shouldBreak : Bool} (hpoint : slot.point = .after status shouldBreak)
    (h : shouldBreak = false → (slot.result status).Passed) : slot.Sound := by
  refine ⟨fun h => ?_, fun m h => ?_, fun status' hstatus => ?_, fun status h => ?_⟩
  · rw [hpoint] at h
    simp at h
  · cases hpoint.symm.trans h
  · cases hpoint.symm.trans hstatus
    exact h rfl
  · cases hpoint.symm.trans h

/-- A step that is finished is sound, if it has passed. -/
theorem sound_of_finished (hpoint : slot.point = .finished status) (h : (slot.result status).Passed) :
    slot.Sound := by
  refine ⟨fun h => ?_, fun m h => ?_, fun status h => ?_, fun status' hstatus => ?_⟩
  · rw [hpoint] at h
    simp at h
  · cases hpoint.symm.trans h
  · cases hpoint.symm.trans h
  · cases hpoint.symm.trans hstatus
    exact h

/-- An attempt that is not cancelled leaves a sound step. -/
theorem sound_endAttempt (hstatus : status ∈ [ExecutionStepStatus.success, .skipped, .failed]) :
    (slot.endAttempt n status retryIf).Sound := by
  rw [endAttempt]
  split
  · exact sound_of_attempt (.inl rfl)
  · refine sound_of_after rfl fun hgoes => ?_
    rw [Passed, Green, result, getLast?_concat]
    simp only [mem_cons, not_mem_nil, or_false] at hstatus
    rcases hstatus with rfl | rfl | rfl
    · exact .inl mem_cons_self
    · exact .inl (mem_cons_of_mem _ mem_cons_self)
    · exact .inr ⟨rfl, by simpa using hgoes⟩

theorem sound_start {settled : Option BodyOutcome}
    (hlive : settled = none → slot.aborted → deadline) :
    (slot.start deadline n settled retryIf).Sound := by
  cases settled with
  | some outcome => exact sound_endAttempt (by cases outcome <;> decide)
  | none =>
    rw [start]
    split
    · exact sound_endAttempt (by decide)
    · next hdeadline =>
      have haborted : slot.aborted = false :=
        Bool.eq_false_iff.2 fun haborted => hdeadline (hlive rfl haborted)
      rw [haborted]
      refine ⟨fun h => ?_, fun _ _ => rfl, fun status h => ?_, fun status h => ?_⟩
      · simp at h
      · cases h
      · cases h

/-- Whatever happens to a sound step, it is sound, if no attempt starts on an aborted signal. -/
theorem Sound.next (h : slot.Sound)
    (hlive : ∀ retryIf, action = .start none retryIf → slot.aborted → deadline)
    (hnext : slot.next deadline action = some slot') : slot'.Sound := by
  cases action with
  | evaluateRules outcome =>
    rw [next.eq_def] at hnext
    dsimp only at hnext
    split at hnext
    · next hrules =>
      have hattempts := h.fresh (by simp [hrules.1])
      cases hnext
      cases outcome with
      | passed => exact sound_of_fresh (by simp) hattempts
      | notPassed =>
        refine sound_of_after rfl fun _ => .inl ?_
        rw [Green, result, hattempts]
        exact mem_cons_of_mem _ mem_cons_self
      | errored => exact sound_of_after rfl nofun
    · cases hnext
  | approval approved =>
    rw [next] at hnext
    split at hnext <;> cases hnext
    cases approved with
    | true => exact sound_of_attempt (.inl rfl)
    | false => exact sound_of_after rfl nofun
  | start settled retryIf =>
    rw [next] at hnext
    split at hnext
    · split at hnext <;> cases hnext
      exact sound_start fun hsettled => hlive retryIf (by rw [hsettled])
    · cases hnext
  | settle outcome retryIf =>
    rw [next] at hnext
    split at hnext <;> cases hnext
    exact sound_endAttempt (by cases outcome <;> decide)
  | timeout =>
    rw [next] at hnext
    split at hnext <;> cases hnext
    exact sound_of_attempt (.inr rfl)
  | unwound retryIf =>
    rw [next] at hnext
    split at hnext <;> cases hnext
    exact sound_endAttempt (by decide)
  | jobDeadline retryIf =>
    rw [next] at hnext
    split at hnext
    · split at hnext <;> cases hnext
      exact sound_endAttempt (by decide)
    · cases hnext
  | cancel =>
    rw [next] at hnext
    split at hnext
    · next n hpoint =>
      -- The signal of a step that races is live.
      rw [h.race n hpoint] at hnext
      cases hnext
    · cases hnext

theorem child_start {settled : Option BodyOutcome} :
    (slot.start deadline n settled retryIf).child = slot.child := by
  cases settled with
  | some outcome => rfl
  | none =>
    rw [start]
    split
    · rfl
    · split <;> rfl

/-- What happens to a step leaves it the step it is. -/
theorem child_next (hnext : slot.next deadline action = some slot') : slot'.child = slot.child := by
  cases action with
  | start settled retryIf =>
    rw [next] at hnext
    split at hnext
    · split at hnext <;> cases hnext
      exact child_start
    · cases hnext
  | jobDeadline retryIf | cancel =>
    rw [next] at hnext
    split at hnext
    · split at hnext <;> cases hnext
      rfl
    · cases hnext
  | evaluateRules outcome | approval approved | settle outcome retryIf | timeout | unwound retryIf =>
    rw [next.eq_def] at hnext
    dsimp only at hnext
    split at hnext <;> cases hnext
    rfl

end StepSlot

/-! ## One node -/

namespace NodeRun

variable {run run' : NodeRun} {slot : StepSlot} {i : ℕ}

/-- The steps are sound, unless the group has failed. -/
def Sound (run : NodeRun) : Prop :=
  run.failed = false → ∀ slot ∈ run.slots, slot.Sound

def children (run : NodeRun) : List IndexedStep := run.slots.map (·.child)

theorem sound_run (node : StepNode) : node.run.Sound := by
  intro _ slot hslot
  cases node with
  | sequential child =>
    rw [mem_singleton.1 hslot]
    exact sound_of_fresh mem_cons_self rfl
  | parallel failFast maxParallel children =>
    obtain ⟨child, -, rfl⟩ := mem_map.1 hslot
    exact sound_of_fresh mem_cons_self rfl

theorem children_run (node : StepNode) : node.run.children = node.steps := by
  cases node with
  | sequential child => rfl
  | parallel failFast maxParallel steps =>
    rw [children, StepNode.run, map_map]
    exact map_id _

/-- One step of a node changes, and is sound then. -/
theorem Sound.set (h : run.Sound) (hslot : run.failed = false → slot.Sound) :
    Sound { run with slots := run.slots.set i slot } := by
  intro hfailed slot' hmem
  rcases mem_or_eq_of_mem_set hmem with hold | rfl
  · exact h hfailed slot' hold
  · exact hslot hfailed

theorem map_child_set {slots : List StepSlot} {old : StepSlot} (hold : slots[i]? = some old)
    (hchild : slot.child = old.child) : (slots.set i slot).map (·.child) = slots.map (·.child) := by
  obtain ⟨hi, rfl⟩ := List.getElem?_eq_some_iff.1 hold
  have hi' : i < (slots.map (·.child)).length := by rwa [length_map]
  have hget : (slots.map (·.child))[i] = slots[i].child := getElem_map _
  rw [map_set, hchild, ← hget, set_getElem_self hi']

/-- What `launch` does: a step that waited begins, or is cancelled as the group has failed. -/
theorem launch_eq_some (h : run.launch i = some run') : ∃ slot, run.slots[i]? = some slot ∧
    slot.point = .waiting ∧ run' = { run with slots := run.slots.set i { slot with
      point := if run.failFast ∧ run.failed then .finished .cancelled else .rules } } := by
  rw [launch] at h
  split at h
  · next slot hslot =>
    split at h
    · next hwaits =>
      cases h
      exact ⟨slot, hslot, hwaits.1, rfl⟩
    · cases h
  · cases h

theorem Sound.launch (h : run.Sound) (hlaunch : run.launch i = some run') : run'.Sound := by
  obtain ⟨slot, hslot, hwaits, rfl⟩ := launch_eq_some hlaunch
  refine h.set fun hfailed => ?_
  have hattempts := (h hfailed slot (mem_of_getElem? hslot)).fresh (by simp [hwaits])
  refine sound_of_fresh ?_ hattempts
  simp [hfailed]

theorem children_launch (hlaunch : run.launch i = some run') : run'.children = run.children := by
  obtain ⟨slot, hslot, -, rfl⟩ := launch_eq_some hlaunch
  exact map_child_set hslot rfl

/-- What `finish` does: a step that is over is finished, and the node has failed if the step breaks
the loop. -/
theorem finish_eq_some (h : run.finish i = some run') : ∃ slot slot' status shouldBreak,
    run.slots[i]? = some slot ∧
    slot.point = .after status shouldBreak ∧ slot'.point = .finished status ∧
    slot'.result status = slot.result status ∧ run'.failed = (run.failed || shouldBreak) ∧
    ∃ slots, (slots = run.slots ∨ run'.failed ∧ slots = run.slots.map (·.abort)) ∧
      run'.slots = slots.set i slot' := by
  rw [finish] at h
  split at h
  · next slot hslot =>
    split at h
    · next status shouldBreak hstatus =>
      cases h
      refine ⟨slot, { slot with point := .finished status }, status, shouldBreak, hslot, hstatus, rfl,
        rfl, rfl, _, ?_, rfl⟩
      split
      · next hbreaks => exact .inr ⟨by rw [hbreaks.1, Bool.or_true], rfl⟩
      · exact .inl rfl
    · cases h
  · cases h

theorem child_abort : slot.abort.child = slot.child := by
  rw [abort]
  split <;> rfl

theorem Sound.finish (h : run.Sound) (hfinish : run.finish i = some run') : run'.Sound := by
  obtain ⟨slot, slot', status, shouldBreak, hslot, hpoint, hpoint', hresult, hfailed', slots,
    hslots, hset⟩ :=
    finish_eq_some hfinish
  intro hfailed other hmem
  -- The node has not failed, so that no signal was aborted, and the step that is over has passed.
  obtain ⟨hrun, hbreaks⟩ := Bool.or_eq_false_iff.1 (hfailed' ▸ hfailed)
  obtain rfl : slots = run.slots :=
    hslots.resolve_right fun haborts => by cases haborts.1.symm.trans hfailed
  rw [hset] at hmem
  rcases mem_or_eq_of_mem_set hmem with hold | rfl
  · exact h hrun other hold
  · refine sound_of_finished hpoint' ?_
    rw [hresult]
    exact (h hrun slot (mem_of_getElem? hslot)).after status (hbreaks ▸ hpoint)

theorem children_finish (hfinish : run.finish i = some run') : run'.children = run.children := by
  obtain ⟨slot, slot', _, _, hslot, -, -, hresult, -, slots, hslots, hset⟩ := finish_eq_some hfinish
  have hchild : slot'.child = slot.child := congrArg SandboxStepResult.child hresult
  rw [children, hset]
  rcases hslots with rfl | ⟨-, rfl⟩
  · exact map_child_set hslot hchild
  · have habort : (run.slots.map (·.abort))[i]? = some slot.abort := by rw [getElem?_map, hslot]; rfl
    rw [map_child_set habort (hchild.trans child_abort.symm), map_map]
    exact map_congr_left fun other _ => child_abort

theorem result_of_status? {r : SandboxStepResult}
    (h : (slot.status?.map fun status => slot.result status) = some r) :
    slot.point = .finished r.status ∧ slot.result r.status = r := by
  obtain ⟨status, hstatus, rfl⟩ := Option.map_eq_some_iff.1 h
  rw [status?] at hstatus
  split at hstatus
  · next hpoint =>
    cases hstatus
    exact ⟨hpoint, rfl⟩
  · cases hstatus

theorem children_results? {results : List SandboxStepResult} (h : run.results? = some results) :
    results.map (·.child) = run.children :=
  map_of_mapM h fun _ _ hr => (congrArg SandboxStepResult.child (result_of_status? hr).2).symm

/-- The steps of a node that has not failed have passed. -/
theorem Sound.results {results : List SandboxStepResult} (h : run.Sound)
    (hresults : run.results? = some results)
    (hfailed : run.failed = false) : ∀ r ∈ results, r.Passed := by
  intro r hr
  obtain ⟨slot, hslot, heq⟩ := mem_map.1 (mapM_eq_some hresults ▸ mem_map_of_mem hr)
  obtain ⟨hpoint, hresult⟩ := result_of_status? heq
  exact hresult ▸ (h hfailed slot hslot).finished r.status hpoint

end NodeRun

/-! ## The loop -/

namespace StepLoopState

variable {nodes : List StepNode} {s t : StepLoopState} {run run' : NodeRun}
  {results : List SandboxStepResult}

/-- The steps that are walked, are run, and are to be walked. -/
def steps (s : StepLoopState) : List IndexedStep :=
  s.stepResults.map (·.child) ++ (s.run.elim [] children ++ s.nodes.flatMap (·.steps))

/-- While the loop goes on the steps that are over have passed, and while no step has failed none is
lost. -/
structure Sound (nodes : List StepNode) (s : StepLoopState) : Prop where
  run : ∀ run ∈ s.run, run.Sound
  passed : s.failed = false ∨ s.nodes ≠ [] ∨ s.run ≠ none → ∀ r ∈ s.stepResults, r.Passed
  steps : s.failed = false → s.steps = nodes.flatMap (·.steps)
  success : s.ended = some (.returned .success) → s.failed = false ∧ s.nodes = [] ∧ s.run = none

theorem sound_init {forceInitialFailure : Bool} :
    Sound nodes { nodes, failed := forceInitialFailure } where
  run := by
    intro run hrun
    cases hrun
  passed := by
    intro _ r hr
    cases hr
  steps _ := rfl
  success := by
    intro h
    cases h

/-- The node that is run goes on. -/
theorem Sound.setRun (h : s.Sound nodes) (hended : s.ended = none) (hrun : s.run = some run)
    (hsound : run'.Sound)
    (hchildren : run'.children = run.children) : Sound nodes { s with run := some run' } where
  run := by
    rintro _ ⟨⟩
    exact hsound
  passed _ := h.passed (.inr (.inr (by simp [hrun])))
  steps hfailed := by
    rw [← h.steps hfailed, StepLoopState.steps, StepLoopState.steps, hrun]
    dsimp only [Option.elim]
    rw [hchildren]
  success hsuccess := by cases hended.symm.trans hsuccess

theorem Sound.nextNode {node : StepNode} (h : s.Sound nodes) (hended : s.ended = none)
    (hrun : s.run = none) {rest : List StepNode} (hnodes : s.nodes = node :: rest) :
    Sound nodes { s with run := some node.run, nodes := rest } where
  run := by
    rintro _ ⟨⟩
    exact sound_run node
  passed _ := h.passed (.inr (.inl (by simp [hnodes])))
  steps hfailed := by
    rw [← h.steps hfailed, StepLoopState.steps, StepLoopState.steps, hrun, hnodes, flatMap_cons]
    dsimp only [Option.elim]
    rw [children_run, nil_append]
  success hsuccess := by cases hended.symm.trans hsuccess

/-- A node is over: its steps have passed, or it has failed and the loop ends. -/
theorem Sound.endNode (h : s.Sound nodes) (hended : s.ended = none) (hrun : s.run = some run)
    (hresults : run.results? = some results) : (s.endNode run results).Sound nodes where
  run := by
    intro run hrun
    cases hrun
  passed := by
    intro hgoes r hr
    have hfailed : run.failed = false := by
      rcases hgoes with hfailed | hnodes | hrun
      · exact (Bool.or_eq_false_iff.1 (Bool.or_eq_false_iff.1 hfailed).1).2
      · exact Bool.eq_false_iff.2 fun hfailed => hnodes (if_pos hfailed)
      · exact absurd rfl hrun
    rcases mem_append.1 hr with hold | hnew
    · exact h.passed (.inr (.inr (by simp [hrun]))) r hold
    · exact (h.run run hrun).results hresults hfailed r hnew
  steps := by
    intro hfailed
    obtain ⟨hfailed, -⟩ := Bool.or_eq_false_iff.1 hfailed
    obtain ⟨hfailed, hrunFailed⟩ := Bool.or_eq_false_iff.1 hfailed
    rw [← h.steps hfailed, StepLoopState.steps, StepLoopState.steps, StepLoopState.endNode, hrun]
    dsimp only [Option.elim]
    rw [hrunFailed, if_neg Bool.false_ne_true, map_append, children_results? hresults, nil_append,
      append_assoc]
  success hsuccess := by cases hended.symm.trans hsuccess

theorem Sound.runJobCompletionHooks (h : s.Sound nodes) {promoted : Bool} (hrun : s.run = none)
    (hover : s.isAborted ∨ s.nodes = []) : Sound nodes { s with ended := some (.returned (
      if s.isAborted then .aborted
      else if s.failed || promoted then .failed
      else .success)) } where
  run := h.run
  passed := h.passed
  steps := h.steps
  success := by
    intro hsuccess
    dsimp only at hsuccess ⊢
    split at hsuccess
    · cases hsuccess
    · next haborted =>
      split at hsuccess
      · cases hsuccess
      · next hfailed =>
        rw [Bool.not_eq_true, Bool.or_eq_false_iff] at hfailed
        exact ⟨hfailed.1, hover.resolve_left haborted, hrun⟩

theorem Sound.step {a : StepLoopAction} (h : s.Sound nodes) (hlive : StartsLive s a)
    (hstep : s.step a = some t) : t.Sound nodes := by
  rw [step.eq_def] at hstep
  split at hstep
  · cases hstep
  next hended =>
  rw [Option.not_isSome_iff_eq_none] at hended
  cases a with
  | nextNode =>
    dsimp only at hstep
    split at hstep
    · next node rest hrun hnodes =>
      split at hstep
      · cases hstep
      · cases hstep
        exact h.nextNode hended hrun hnodes
    · cases hstep
  | launch i =>
    obtain ⟨run, hrun, hstep⟩ := Option.bind_eq_some_iff.1 hstep
    obtain ⟨run', hlaunch, rfl⟩ := Option.map_eq_some_iff.1 hstep
    exact h.setRun hended hrun ((h.run run hrun).launch hlaunch) (children_launch hlaunch)
  | step i action =>
    obtain ⟨run, hrun, hstep⟩ := Option.bind_eq_some_iff.1 hstep
    obtain ⟨slot, hslot, hstep⟩ := Option.bind_eq_some_iff.1 hstep
    obtain ⟨slot', hnext, rfl⟩ := Option.map_eq_some_iff.1 hstep
    refine h.setRun hended hrun ((h.run run hrun).set fun hfailed => ?_)
      (map_child_set hslot (child_next hnext))
    refine (h.run run hrun hfailed slot (mem_of_getElem? hslot)).next
      (fun retryIf haction haborted => ?_) hnext
    subst haction
    refine (hlive i retryIf rfl run hrun slot hslot haborted).resolve_right fun hbroken => ?_
    cases hbroken.symm.trans hfailed
  | finish i =>
    obtain ⟨run, hrun, hstep⟩ := Option.bind_eq_some_iff.1 hstep
    obtain ⟨run', hfinish, rfl⟩ := Option.map_eq_some_iff.1 hstep
    exact h.setRun hended hrun ((h.run run hrun).finish hfinish) (children_finish hfinish)
  | endNode =>
    obtain ⟨run, hrun, hstep⟩ := Option.bind_eq_some_iff.1 hstep
    obtain ⟨results, hresults, rfl⟩ := Option.map_eq_some_iff.1 hstep
    exact h.endNode hended hrun hresults
  | runJobCompletionHooks promoted =>
    dsimp only at hstep
    split at hstep
    · next hover =>
      cases hstep
      exact h.runJobCompletionHooks hover.1 hover.2
    · cases hstep
  | abort | breachDeadline =>
    cases hstep
    exact ⟨h.run, h.passed, h.steps, h.success⟩
  | throws =>
    cases hstep
    refine ⟨h.run, h.passed, h.steps, fun hsuccess => ?_⟩
    cases hsuccess

end StepLoopState

variable {nodes : List StepNode} {s : StepLoopState}

end Kici
