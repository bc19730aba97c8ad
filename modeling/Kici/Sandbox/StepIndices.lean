import Kici.Foundation.Lists
import Kici.Sandbox.Timeline

/-!
# Step indices of a timeline

The rows of a job that have come so far have a step index of their own if and only if they are apart
(`step_indices_nodup_iff_apart`): the hooks that complete or cancel the job do not run where an
observer hook did, or one another, and no owner has made so many operations on caches that they
reach into the block of an owner after it (`Apart`). The steps themselves, the observer hooks and
the operations on caches of different kinds never meet.

A job of one step with a hook before the step and one on success has a row of each under the same
index (`exists_shared_step_index`).
-/

namespace Kici

open List JobStage PseudoStep UnitOp Option

namespace TimelineRun

/-- The rows of the run are apart. -/
structure Apart (s : TimelineRun) : Prop where
  beforeStep : .beforeStep 0 ∈ s.rows → .completion 0 ∉ s.rows
  afterStep : .afterStep 0 ∈ s.rows → .completion 1 ∉ s.rows
  cancel : ∀ results k, .cancel results k ∈ s.rows → .completion (results + k) ∉ s.rows ∧
    ∀ stepIndex, (results + k = 2 * stepIndex → .beforeStep stepIndex ∉ s.rows) ∧
      (results + k = 2 * stepIndex + 1 → .afterStep stepIndex ∉ s.rows)
  caches : ∀ owner owner', owner < owner' →
    s.cacheCounters owner' = 0 ∨ s.cacheCounters owner ≤ (owner' - owner) * CACHE_INDEX_BLOCK

end TimelineRun

/-! ## Rows that are planned -/

/-- The rows of a step that runs. -/
def TimelineStep.rows (step : TimelineStep) : List PseudoStep :=
  [.beforeStep step.stepIndex, .step step.stepIndex, .afterStep step.stepIndex]

theorem mem_rows {step : TimelineStep} {row : PseudoStep} : row ∈ step.rows ↔
    row = .beforeStep step.stepIndex ∨ row = .step step.stepIndex ∨ row = .afterStep step.stepIndex := by
  simp [TimelineStep.rows]

/-- The step of a row of a step. -/
def PseudoStep.stepIndex? : PseudoStep → Option ℕ
  | step stepIndex | beforeStep stepIndex | afterStep stepIndex => some stepIndex
  | _ => none

theorem stepIndex_of_mem_rows {step : TimelineStep} {row : PseudoStep} (h : row ∈ step.rows) :
    row.stepIndex? = some step.stepIndex := by
  rcases mem_rows.1 h with rfl | rfl | rfl <;> rfl

/-- The row of an operation, but for one on caches, whose row is not known before it is made. -/
def UnitOp.row? : UnitOp → Option PseudoStep
  | context row | report row => some row
  | cache | dispose => none

/-- The rows that are left to a unit. -/
def TimelineUnit.rows (unit : TimelineUnit) : List PseudoStep := unit.ops.filterMap row?

/-- The rows of an iteration are among those of its step. -/
theorem rows_stepIteration (hooks : JobHooks) (step : TimelineStep) (outcome : IterationOutcome) :
    ((stepIteration hooks step outcome).filterMap UnitOp.row?).Sublist step.rows := by
  have hcaches (n : ℕ) : (List.replicate n UnitOp.cache).filterMap UnitOp.row? = [] := by
    induction n with
    | zero => rfl
    | succ n ih => exact ih
  have hhook (runs : Bool) (row : PseudoStep) :
      ((if runs then [context row] else []).filterMap row?).Sublist [row] := by
    cases runs with
    | true => exact .refl _
    | false => exact nil_sublist _
  cases outcome with
  | runs saves =>
    simp only [stepIteration, filterMap_append, hcaches, append_nil]
    exact (((hhook _ (.beforeStep step.stepIndex)).append (.refl [.step step.stepIndex])).append
      (hhook _ (.afterStep step.stepIndex))).append (nil_sublist [])
  | _ => exact .cons _ (.cons_cons _ (.cons _ .slnil))

namespace JobStage

/-- How many hooks have run to complete the job. -/
def completions : JobStage → ℕ
  | restoring | walking => 0
  | completing run _ => run
  | saving _ | cancelling _ _ _ | finished => 2

/-- How many hooks have run to cancel a job with so many results. -/
def cancels : JobStage → ℕ → ℕ
  | cancelling results run _, results' => if results' = results then run else 0
  | _, _ => 0

/-- At most two hooks complete a job, and four cancel it. -/
def Bounded (stepCount : ℕ) : JobStage → Prop
  | completing run left => run + left ≤ 2
  | cancelling results run left => results ≤ stepCount ∧ run + left ≤ 4
  | _ => True

end JobStage

namespace TimelineRun

/-- The rows that are left to units and steps. -/
def pending (s : TimelineRun) : List PseudoStep :=
  s.inFlight.flatMap TimelineUnit.rows ++ (s.waiting ++ s.nodes.flatMap (·.children)).flatMap
    TimelineStep.rows

/-- How often a row has come, or may come. -/
def planned (s : TimelineRun) (row : PseudoStep) : ℕ := s.rows.count row + s.pending.count row

/-- A row of the job that has come, or may come. -/
def RowValid (job : TimelineJob) (s : TimelineRun) : PseudoStep → Prop
  | .step stepIndex | .beforeStep stepIndex | .afterStep stepIndex => stepIndex < job.stepCount
  | .completion k => k < s.stage.completions
  | .cancel results k => k < s.stage.cancels results
  | .cache owner k => k < s.cacheCounters owner

/-- Every row is planned once at most, and is one of the job. -/
structure Indexed (job : TimelineJob) (s : TimelineRun) : Prop where
  once : ∀ row, s.planned row ≤ 1
  valid : ∀ row, 0 < s.planned row → s.RowValid job row
  caches : ∀ owner k, k < s.cacheCounters owner → .cache owner k ∈ s.rows
  results : s.results + s.inFlight.countP (·.isStep) +
    (s.waiting ++ s.nodes.flatMap (·.children)).length ≤
    job.stepCount
  stage : s.stage.Bounded job.stepCount

variable {job : TimelineJob} {s t : TimelineRun} {unit : TimelineUnit} {place : ℕ}

theorem RowValid.mono {row : PseudoStep} (h : s.RowValid job row)
    (hcompletions : s.stage.completions ≤ t.stage.completions)
    (hcancels : ∀ results, s.stage.cancels results ≤ t.stage.cancels results)
    (hcaches : ∀ owner, s.cacheCounters owner ≤ t.cacheCounters owner) : t.RowValid job row := by
  cases row with
  | step | beforeStep | afterStep => exact h
  | completion k => exact Nat.lt_of_lt_of_le h hcompletions
  | cancel results k => exact Nat.lt_of_lt_of_le h (hcancels results)
  | cache owner k => exact Nat.lt_of_lt_of_le h (hcaches owner)

/-- A step plans no row but such as could not come before. -/
theorem Indexed.of_planned (h : s.Indexed job)
    (hplanned : ∀ row, t.planned row ≤ s.planned row ∨
      t.planned row ≤ s.planned row + 1 ∧ ¬ s.RowValid job row ∧ t.RowValid job row)
    (hvalid : ∀ row, s.RowValid job row → t.RowValid job row)
    (hcaches : ∀ owner k, k < t.cacheCounters owner → .cache owner k ∈ t.rows)
    (hresults : t.results + t.inFlight.countP (·.isStep) +
      (t.waiting ++ t.nodes.flatMap (·.children)).length ≤
      s.results + s.inFlight.countP (·.isStep) + (s.waiting ++ s.nodes.flatMap (·.children)).length)
    (hstage : t.stage.Bounded job.stepCount) : t.Indexed job where
  once row := by
    rcases hplanned row with hle | ⟨hle, hfresh, -⟩
    · exact hle.trans (h.once row)
    · have hzero : s.planned row = 0 := Nat.eq_zero_of_not_pos fun hpos => hfresh (h.valid row hpos)
      rwa [hzero] at hle
  valid row hpos := by
    rcases hplanned row with hle | ⟨-, -, hnew⟩
    · exact hvalid row (h.valid row (Nat.lt_of_lt_of_le hpos hle))
    · exact hnew
  caches := hcaches
  results := hresults.trans h.results
  stage := hstage

/-- A row is planned that could not come before. -/
theorem planned_fresh {new : PseudoStep}
    (hplanned : ∀ row, t.planned row = s.planned row + [new].count row)
    (hfresh : ¬ s.RowValid job new) (hnew : t.RowValid job new) (row : PseudoStep) :
    t.planned row ≤ s.planned row ∨
      t.planned row ≤ s.planned row + 1 ∧ ¬ s.RowValid job row ∧ t.RowValid job row := by
  rw [hplanned, count_singleton]
  by_cases heq : new = row
  · subst heq
    exact .inr ⟨by simp, hfresh, hnew⟩
  · exact .inl (by simp [heq])

theorem planned_concat {rows : List PseudoStep} (hrows : t.rows = s.rows ++ rows)
    (hpending : t.pending = s.pending)
    (row : PseudoStep) : t.planned row = s.planned row + rows.count row := by
  rw [planned, planned, hrows, hpending, count_append]
  omega

theorem planned_launch (s : TimelineRun) (stepIndex : ℕ) (isStep : Bool) (ops : List UnitOp)
    (row : PseudoStep) :
    (s.launch stepIndex isStep ops).planned row = s.planned row + (ops.filterMap row?).count row := by
  simp only [planned, pending, launch, flatMap_append, flatMap_singleton, count_append,
    TimelineUnit.rows]
  omega

/-- A step waits no longer. -/
theorem planned_of_waiting {step : TimelineStep} {waiting : List TimelineStep}
    (hwaiting : s.waiting = step :: waiting)
    (row : PseudoStep) : s.planned row = { s with waiting }.planned row + step.rows.count row := by
  simp only [planned, pending, hwaiting, cons_append, flatMap_cons, count_append]
  omega

/-! ## What steps do to the rows -/

theorem Indexed.addCacheRow (h : s.Indexed job) (owner : ℕ) : (s.addCacheRow owner).Indexed job := by
  have hself : (s.addCacheRow owner).cacheCounters owner = s.cacheCounters owner + 1 :=
    Function.update_self _ _ _
  have hother {owner' : ℕ} (hne : owner' ≠ owner) :
      (s.addCacheRow owner).cacheCounters owner' = s.cacheCounters owner' :=
        Function.update_of_ne hne _ _
  have hplanned (row : PseudoStep) : (s.addCacheRow owner).planned row =
      s.planned row + [cache owner (s.cacheCounters owner)].count row :=
    planned_concat (s := s) (t := s.addCacheRow owner) rfl rfl row
  refine h.of_planned (planned_fresh hplanned ?_ ?_) ?_ ?_ le_rfl h.stage
  · exact lt_irrefl _
  · exact Nat.lt_of_lt_of_eq (Nat.lt_succ_self _) hself.symm
  · refine fun row hrow => hrow.mono le_rfl (fun _ => le_rfl) fun owner' => ?_
    by_cases heq : owner' = owner
    · rw [heq, hself]
      exact Nat.le_succ _
    · rw [hother heq]
  · intro owner' k hk
    by_cases heq : owner' = owner
    · subst heq
      rw [hself] at hk
      rcases Nat.lt_succ_iff_lt_or_eq.1 hk with hlt | rfl
      · exact mem_append_left _ (h.caches owner' k hlt)
      · exact mem_append_right _ (mem_singleton_self _)
    · rw [hother heq] at hk
      exact mem_append_left _ (h.caches owner' k hk)

/-- A hook of the job begins. -/
theorem Indexed.launchHook (h : s.Indexed job) {stage : JobStage} {stepIndex : ℕ} {ops : List UnitOp}
    {new : PseudoStep} (hops : ops.filterMap row? = [new]) (hfresh : ¬ s.RowValid job new)
    (hnew : ({ s with stage }.launch stepIndex false ops).RowValid job new)
    (hcompletions : s.stage.completions ≤ stage.completions)
    (hcancels : ∀ results, s.stage.cancels results ≤ stage.cancels results)
    (hstage : stage.Bounded job.stepCount) :
    ({ s with stage }.launch stepIndex false ops).Indexed job := by
  refine h.of_planned (planned_fresh (fun row => ?_) hfresh hnew)
    (fun row hrow => hrow.mono hcompletions hcancels fun _ => le_rfl) h.caches ?_ hstage
  · rw [planned_launch, hops]
    rfl
  · simp [TimelineRun.launch]

/-- The run goes on to another stage. -/
theorem Indexed.of_stage (h : s.Indexed job) (hrows : t.rows = s.rows) (hunits : t.inFlight = s.inFlight)
    (hsteps : t.waiting ++ t.nodes.flatMap (·.children) = s.waiting ++ s.nodes.flatMap (·.children))
    (hcaches : t.cacheCounters = s.cacheCounters) (hresults : t.results = s.results)
    (hcompletions : s.stage.completions ≤ t.stage.completions)
    (hcancels : ∀ results, s.stage.cancels results ≤ t.stage.cancels results)
    (hstage : t.stage.Bounded job.stepCount) : t.Indexed job := by
  refine h.of_planned (fun row => .inl ?_)
    (fun row hrow => hrow.mono hcompletions hcancels fun _ => by rw [hcaches]) ?_
    ?_ hstage
  · rw [planned, planned, pending, pending, hrows, hunits, hsteps]
  · rw [hcaches, hrows]
    exact h.caches
  · rw [hresults, hunits, hsteps]

/-- A step begins, or is skipped: what it leaves planned is among its rows. -/
theorem Indexed.of_waiting (h : s.Indexed job) {step : TimelineStep} {waiting : List TimelineStep}
    {rows : List PseudoStep} (hwaiting : s.waiting = step :: waiting) (hrows : rows.Sublist step.rows)
    (hplanned : ∀ row, t.planned row = { s with waiting }.planned row + rows.count row)
    (hmono : ∀ row ∈ s.rows, row ∈ t.rows) (hsteps : t.waiting ++ t.nodes.flatMap (·.children) =
      waiting ++ s.nodes.flatMap (·.children)) (hcaches : t.cacheCounters = s.cacheCounters)
    (hstage : t.stage = s.stage)
    (hresults : t.results + t.inFlight.countP (·.isStep) = s.results + s.inFlight.countP
      (·.isStep) + 1) :
    t.Indexed job := by
  refine h.of_planned (fun row => .inl ?_)
    (fun row hrow => hrow.mono (by rw [hstage]) (fun _ => by rw [hstage])
    fun _ => by rw [hcaches]) (fun owner k hk => ?_) ?_ (hstage ▸ h.stage)
  · rw [hplanned, planned_of_waiting hwaiting]
    exact Nat.add_le_add_left (hrows.count_le row) _
  · rw [hcaches] at hk
    exact hmono _ (h.caches owner k hk)
  · rw [hresults, hsteps, hwaiting, cons_append, length_cons]
    omega

/-! ### Operations -/

section
variable {rest : List UnitOp} {result : UnitResult}

/-- What the unit at the place goes on as. -/
theorem inFlight_proceed (rest : List UnitOp) (result : UnitResult)
    (hunit : s.inFlight[place]? = some unit) : (s.proceed place unit rest result).inFlight =
    s.inFlight.take place ++ (if rest = [] then [] else [{ unit with ops := rest }]) ++
      s.inFlight.drop (place + 1) := by
  cases rest with
  | nil => exact (eraseIdx_eq_take_drop_succ _ _).trans (by simp)
  | cons op rest =>
    refine set_eq_take_append_cons_drop.trans ?_
    rw [if_pos (List.getElem?_eq_some_iff.1 hunit).1, if_neg (cons_ne_nil _ _)]
    simp

theorem proceed_frame (s : TimelineRun) (place : ℕ) (unit : TimelineUnit) (rest : List UnitOp)
    (result : UnitResult) : (s.proceed place unit rest result).rows = s.rows ∧
    (s.proceed place unit rest result).waiting = s.waiting ∧
    (s.proceed place unit rest result).nodes = s.nodes ∧
    (s.proceed place unit rest result).stage = s.stage ∧
    (s.proceed place unit rest result).cacheCounters = s.cacheCounters := by
  cases rest <;> exact ⟨rfl, rfl, rfl, rfl, rfl⟩

/-- The operation is no longer planned. -/
theorem planned_proceed {op : UnitOp} (result : UnitResult) (hunit : s.inFlight[place]? = some unit)
    (hops : unit.ops = op :: rest) (row : PseudoStep) :
    (s.proceed place unit rest result).planned row + op.row?.toList.count row = s.planned row := by
  obtain ⟨hrows, hwaiting, hnodes, -, -⟩ := proceed_frame s place unit rest result
  have hunitRows : unit.rows = op.row?.toList ++ rest.filterMap row? := by
    rw [TimelineUnit.rows, hops, filterMap_cons]
    cases op.row? <;> rfl
  have hleft : (if rest = [] then [] else [{ unit with ops := rest }]).flatMap TimelineUnit.rows =
      rest.filterMap row? := by
    cases rest with
    | nil => rfl
    | cons op rest => exact (congrArg _ (if_neg (cons_ne_nil _ _))).trans (flatMap_singleton _ _)
  have hcount := count_flatMap_replaced TimelineUnit.rows
    (if rest = [] then [] else [{ unit with ops := rest }]) hunit
    row
  rw [hunitRows, hleft, ← inFlight_proceed rest result hunit, count_append] at hcount
  simp only [planned, pending, hrows, hwaiting, hnodes, count_append]
  omega

/-- A step has a result when its iteration is over, and not before. -/
theorem results_proceed (rest : List UnitOp) (result : UnitResult)
    (hunit : s.inFlight[place]? = some unit) : (s.proceed place unit rest result).results +
    (s.proceed place unit rest result).inFlight.countP (·.isStep) = s.results + s.inFlight.countP
    (·.isStep) := by
  have hcount := countP_replaced (·.isStep) (if rest = [] then [] else [{ unit with ops := rest }]) hunit
  rw [← inFlight_proceed rest result hunit] at hcount
  cases rest with
  | nil =>
    have hresults : (s.proceed place unit [] result).results = s.results + unit.isStep.toNat := by
      cases hstep : unit.isStep <;> simp [proceed, hstep]
    simp only [if_true, countP_nil] at hcount
    omega
  | cons op rest =>
    have hresults : (s.proceed place unit (op :: rest) result).results = s.results := rfl
    cases hstep : unit.isStep <;> simp [hstep] at hcount <;> omega

/-- A unit goes on after an operation that has had its row, if it has one. -/
theorem Indexed.proceed {u : TimelineRun} {op : UnitOp} (h : s.Indexed job)
    (hunits : u.inFlight = s.inFlight)
    (hwaiting : u.waiting = s.waiting) (hnodes : u.nodes = s.nodes) (hstage : u.stage = s.stage)
    (hresults : u.results = s.results) (hcaches : u.cacheCounters = s.cacheCounters)
    (hrows : u.rows = s.rows ++ op.row?.toList) (hunit : s.inFlight[place]? = some unit)
    (hops : unit.ops = op :: rest) :
    (u.proceed place unit rest result).Indexed job := by
  obtain ⟨hrows', hwaiting', hnodes', hstage', hcaches'⟩ := proceed_frame u place unit rest result
  have hplanned (row : PseudoStep) : (u.proceed place unit rest result).planned row ≤ s.planned row := by
    have hperformed : u.planned row = s.planned row + op.row?.toList.count row :=
      planned_concat hrows (by rw [pending, pending, hunits, hwaiting, hnodes]) row
    have hproceeded := planned_proceed result (hunits ▸ hunit) hops row
    omega
  have hresults' := results_proceed rest result (hunits ▸ hunit)
  refine h.of_planned (fun row => .inl (hplanned row)) (fun row hrow => hrow.mono ?_ ?_ ?_)
    (fun owner k hk => ?_) ?_ ?_
  · rw [hstage', hstage]
  · exact fun _ => by rw [hstage', hstage]
  · exact fun _ => by rw [hcaches', hcaches]
  · rw [hcaches', hcaches] at hk
    rw [hrows', hrows]
    exact mem_append_left _ (h.caches owner k hk)
  · rw [hresults', hwaiting', hnodes', hwaiting, hnodes, hresults, hunits]
  · rw [hstage', hstage]
    exact h.stage

/-- A unit goes on. -/
theorem Indexed.op (h : s.Indexed job) {removed : Bool} {op : UnitOp}
    (hunit : s.inFlight[place]? = some unit)
    (hops : unit.ops = op :: rest) :
    ((s.perform unit removed op).proceed place unit rest result).Indexed job := by
  cases op with
  | context row | report row => exact h.proceed rfl rfl rfl rfl rfl rfl rfl hunit hops
  | cache =>
    exact (h.addCacheRow (unit.stepIndex + 1)).proceed rfl rfl rfl rfl rfl rfl
      (append_nil _).symm hunit hops
  | dispose =>
    have hframe : s.disposeStepResources unit.stepIndex removed =
        { s with
          handles := (s.disposeStepResources unit.stepIndex removed).handles
          registry := (s.disposeStepResources unit.stepIndex removed).registry } := by
      rw [disposeStepResources]
      split <;> rfl
    rw [perform, hframe]
    exact h.proceed rfl rfl rfl rfl rfl rfl (append_nil _).symm hunit hops

end

theorem cancelHooks_le (job : TimelineJob) (results : ℕ) : job.cancelHooks results ≤ 4 := by
  have hlast : (if results = 0 then 0 else
      (job.steps[results - 1]?.map fun last => last.onCancel.toNat + last.cleanup.toNat).getD 0) ≤
        2 := by
    split
    · exact Nat.zero_le _
    · cases job.steps[results - 1]? with
      | none => exact Nat.zero_le _
      | some last => exact Nat.add_le_add (Bool.toNat_le _) (Bool.toNat_le _)
  exact Nat.add_le_add (Nat.add_le_add hlast (Bool.toNat_le _)) (Bool.toNat_le _)

theorem Indexed.step {a : TimelineAction} (h : s.Indexed job) (hstep : s.step job a = some t) :
    t.Indexed job := by
  cases a with
  | op place removed result =>
    obtain ⟨unit, op, rest, hunit, hops, rfl⟩ := op_cases hstep
    exact h.op hunit hops
  | begin outcome =>
    obtain ⟨step, waiting, hwaiting, rfl⟩ := begin_cases hstep
    refine h.of_waiting hwaiting (rows_stepIteration job.hooks step outcome) (planned_launch _ _ _ _)
      (fun row hrow => hrow) rfl rfl rfl ?_
    simp [launch, Nat.add_assoc]
  | skip =>
    obtain ⟨step, waiting, hwaiting, rfl⟩ := skip_cases hstep
    exact h.of_waiting hwaiting (.cons _ (.cons_cons _ (.cons _ .slnil))) (planned_concat rfl rfl)
      (fun row hrow => mem_append_left _ hrow) rfl rfl rfl (Nat.add_right_comm _ _ _)
  | completionHook =>
    obtain ⟨run, left, hstage, rfl⟩ := completionHook_cases hstep
    have hbounded := h.stage
    have hfresh : ¬ s.RowValid job (.completion run) := fun hvalid => by
      change run < s.stage.completions at hvalid
      rw [hstage] at hvalid
      exact lt_irrefl _ hvalid
    rw [hstage] at hbounded
    refine h.launchHook rfl hfresh (Nat.lt_succ_self run) ?_ (fun _ => ?_) ?_
    · rw [hstage]
      exact Nat.le_succ run
    · rw [hstage]
      exact le_rfl
    · change run + 1 + left ≤ 2
      change run + (left + 1) ≤ 2 at hbounded
      omega
  | cancelHook =>
    obtain ⟨results, run, left, hstage, rfl⟩ := cancelHook_cases hstep
    have hself (run left : ℕ) : (cancelling results run left).cancels results = run := if_pos rfl
    have hbounded := h.stage
    have hfresh : ¬ s.RowValid job (.cancel results run) := fun hvalid => by
      change run < s.stage.cancels results at hvalid
      rw [hstage, hself] at hvalid
      exact lt_irrefl _ hvalid
    rw [hstage] at hbounded
    refine h.launchHook rfl hfresh ((Nat.lt_succ_self run).trans_eq (hself _ _).symm) ?_
      (fun results' => ?_) ?_
    · rw [hstage]
      exact le_rfl
    · rw [hstage, cancels, cancels]
      split
      · exact Nat.le_succ run
      · exact le_rfl
    · refine ⟨hbounded.1, ?_⟩
      have hfour := hbounded.2
      omega
  | restoreJobCache | saveJobCache =>
    obtain ⟨-, hstep⟩ := ite_none_right_eq_some.1 hstep
    cases hstep
    exact h.addCacheRow 0
  | beginWalk =>
    obtain ⟨hstage, hstep⟩ := ite_none_right_eq_some.1 hstep
    cases hstep
    exact h.of_stage rfl rfl rfl rfl rfl (by rw [hstage]; rfl) (fun _ => by rw [hstage]; rfl) trivial
  | endWalk =>
    obtain ⟨⟨hstage, -⟩, hstep⟩ := ite_none_right_eq_some.1 hstep
    cases hstep
    refine h.of_stage rfl rfl rfl rfl rfl ?_ (fun _ => ?_) ?_
    · rw [hstage]
      exact Nat.zero_le _
    · rw [hstage]
      exact Nat.zero_le _
    · dsimp only
      split
      · trivial
      · exact (Nat.zero_add _).trans_le (Nat.add_le_add (Bool.toNat_le _) (Bool.toNat_le _))
  | nextNode =>
    obtain ⟨node, nodes, hnodes, -, hwaiting, rfl⟩ := nextNode_cases hstep
    refine h.of_stage rfl rfl ?_ rfl rfl le_rfl (fun _ => le_rfl) h.stage
    rw [hnodes, hwaiting]
    rfl
  | abort =>
    cases hstep
    exact h.of_stage rfl rfl rfl rfl rfl le_rfl (fun _ => le_rfl) h.stage
  | mount ref event =>
    obtain ⟨handle, -, hstep⟩ := bind_eq_some_iff.1 hstep
    obtain ⟨handle', -, rfl⟩ := map_eq_some_iff.1 hstep
    exact h.of_stage rfl rfl rfl rfl rfl le_rfl (fun _ => le_rfl) h.stage
  | endCompletion =>
    obtain ⟨run, hstage, rfl⟩ := endCompletion_cases hstep
    have hbounded := h.stage
    rw [hstage] at hbounded
    refine h.of_stage rfl rfl rfl rfl rfl ?_ (fun _ => ?_) trivial
    · rw [hstage]
      exact hbounded
    · rw [hstage]
      exact le_rfl
  | endSaving force =>
    obtain ⟨succeeded, hstage, rfl⟩ := endSaving_cases hstep
    refine h.of_stage rfl rfl rfl rfl rfl ?_ (fun _ => ?_) ?_
    · rw [hstage]
      dsimp only
      split <;> exact le_rfl
    · rw [hstage]
      exact Nat.zero_le _
    · dsimp only
      split
      · exact ⟨(Nat.le_add_right _ _).trans ((Nat.le_add_right _ _).trans h.results),
          (Nat.zero_add _).trans_le (cancelHooks_le job _)⟩
      · trivial

/-- Before the run, every row of every step is planned once. -/
theorem Indexed.init (job : TimelineJob) (forceInitialFailure : Bool) :
    Indexed job { nodes := job.nodes, failed := forceInitialFailure } := by
  have hindices : (job.steps.map (·.stepIndex)).Nodup := job.indices ▸ nodup_range
  have hnodup : (job.steps.flatMap TimelineStep.rows).Nodup := by
    refine nodup_flatMap.2 ⟨fun step _ => by simp [TimelineStep.rows], ?_⟩
    refine (pairwise_map.1 hindices).imp fun hne row hrow hrow' => hne ?_
    exact some.inj ((stepIndex_of_mem_rows hrow).symm.trans (stepIndex_of_mem_rows hrow'))
  refine ⟨fun row => ?_, fun row hpos => ?_, fun owner k hk => ?_, ?_, trivial⟩
  · exact (Nat.zero_add _).trans_le (nodup_iff_count_le_one.1 hnodup row)
  · obtain ⟨step, hstep, hrow⟩ := mem_flatMap.1 (count_pos_iff.1 (hpos.trans_eq (Nat.zero_add _)))
    have hlt : step.stepIndex < job.stepCount := by
      have hindex := List.mem_map_of_mem (f := (·.stepIndex)) hstep
      exact mem_range.1 (job.indices ▸ hindex)
    rcases mem_rows.1 hrow with rfl | rfl | rfl <;> exact hlt
  · cases hk
  · exact (Nat.zero_add _).le

end TimelineRun

/-! ## Indices -/

/-- Past the steps come the rows of hooks, and past those the rows of caches. -/
def PseudoStep.kind : PseudoStep → ℕ
  | step _ => 0
  | beforeStep _ => 1
  | afterStep _ => 2
  | completion _ => 3
  | cancel _ _ => 4
  | cache _ _ => 5

namespace JobStage

theorem completions_le {stepCount : ℕ} {stage : JobStage} (h : stage.Bounded stepCount) :
    stage.completions ≤ 2 := by
  cases stage with
  | restoring | walking => exact Nat.zero_le _
  | completing run left => exact (Nat.le_add_right run left).trans h
  | _ => exact le_rfl

theorem eq_cancelling_of_lt {stage : JobStage} {results k : ℕ} (h : k < stage.cancels results) :
    ∃ run left, stage = .cancelling results run left ∧ k < run := by
  cases stage with
  | cancelling results' run left =>
    rw [cancels] at h
    split at h
    next heq => exact ⟨run, left, heq ▸ rfl, h⟩
    next => cases h
  | _ => cases h

end JobStage

namespace TimelineRun

variable {job : TimelineJob} {s : TimelineRun} {x y : PseudoStep}

theorem Indexed.rowValid (h : s.Indexed job) (hx : x ∈ s.rows) : s.RowValid job x :=
  h.valid x (Nat.lt_of_lt_of_le (count_pos_iff.2 hx) (Nat.le_add_right _ _))

theorem Indexed.cancelling (h : s.Indexed job) {results k : ℕ} (hx : .cancel results k ∈ s.rows) :
    ∃ run left, s.stage = .cancelling results run left ∧ results ≤ job.stepCount ∧ k < 4 := by
  obtain ⟨run, left, hstage, hk⟩ := eq_cancelling_of_lt (h.rowValid hx)
  have hbounded := h.stage
  rw [hstage] at hbounded
  exact ⟨run, left, hstage, hbounded.1, hk.trans_le ((Nat.le_add_right _ _).trans hbounded.2)⟩

theorem stepCount_le_index (n : ℕ) (hkind : x.kind ≠ 0) : n ≤ x.index n := by
  cases x with
  | step stepIndex => exact absurd rfl hkind
  | _ => simp only [index]; omega

/-- The rows of hooks end before those of caches begin. -/
theorem Indexed.index_lt (h : s.Indexed job) (hx : x ∈ s.rows) (hkind : x.kind < 5) :
    x.index job.stepCount < job.stepCount * 3 + 100 := by
  have hvalid := h.rowValid hx
  cases x with
  | step stepIndex | beforeStep stepIndex | afterStep stepIndex =>
    change stepIndex < job.stepCount at hvalid
    simp only [index]
    omega
  | completion k =>
    have hk : k < 2 := Nat.lt_of_lt_of_le hvalid (completions_le h.stage)
    simp only [index]
    omega
  | cancel results k =>
    obtain ⟨-, -, -, hresults, hk⟩ := h.cancelling hx
    simp only [index]
    omega
  | cache owner k => exact absurd hkind (lt_irrefl _)

/-- The indices of an owner stay below those of the owners after it. -/
theorem Apart.cache_ne (h : s.Apart) {owner owner' k k' : ℕ} (hlt : owner < owner')
    (hk : k < s.cacheCounters owner) (hk' : k' < s.cacheCounters owner') (n : ℕ) :
    (cache owner k).index n ≠ (cache owner' k').index n := by
  intro heq
  have hblock := (h.caches owner owner' hlt).resolve_left (Nat.ne_zero_of_lt hk')
  obtain ⟨d, rfl⟩ := Nat.exists_eq_add_of_le hlt.le
  rw [Nat.add_sub_cancel_left] at hblock
  simp only [index, Nat.add_mul] at heq
  omega

/-- Rows of one kind with one index are the same. -/
theorem Apart.eq_of_kind_eq (hapart : s.Apart) (h : s.Indexed job) (hx : x ∈ s.rows) (hy : y ∈ s.rows)
    (hkind : x.kind = y.kind) (heq : x.index job.stepCount = y.index job.stepCount) : x = y := by
  cases x with
  | step i => cases y with
    | step j => exact congrArg _ heq
    | _ => cases hkind
  | beforeStep i => cases y with
    | beforeStep j =>
      have hij : i = j := by
        simp only [index] at heq
        omega
      exact congrArg _ hij
    | _ => cases hkind
  | afterStep i => cases y with
    | afterStep j =>
      have hij : i = j := by
        simp only [index] at heq
        omega
      exact congrArg _ hij
    | _ => cases hkind
  | completion k => cases y with
    | completion k' => exact congrArg _ (Nat.add_left_cancel heq)
    | _ => cases hkind
  | cancel results k => cases y with
    | cancel results' k' =>
      -- the run is cancelled but once, with one number of results
      obtain ⟨run, left, hstage, -, -⟩ := h.cancelling hx
      obtain ⟨run', left', hstage', -, -⟩ := h.cancelling hy
      cases hstage.symm.trans hstage'
      exact congrArg _ (Nat.add_left_cancel heq)
    | _ => cases hkind
  | cache owner k => cases y with
    | cache owner' k' =>
      have hk : k < s.cacheCounters owner := h.rowValid hx
      have hk' : k' < s.cacheCounters owner' := h.rowValid hy
      rcases lt_trichotomy owner owner' with hlt | rfl | hlt
      · exact absurd heq (hapart.cache_ne hlt hk hk' _)
      · exact congrArg _ (Nat.add_left_cancel heq)
      · exact absurd heq.symm (hapart.cache_ne hlt hk' hk _)
    | _ => cases hkind

/-- Rows of different kinds have different indices. -/
theorem Apart.index_ne (hapart : s.Apart) (h : s.Indexed job) (hx : x ∈ s.rows) (hy : y ∈ s.rows)
    (hkind : x.kind < y.kind) : x.index job.stepCount ≠ y.index job.stepCount := by
  intro heq
  have hcache : y.kind ≠ 5 := fun hfive => by
    have hlt := h.index_lt hx (hfive ▸ hkind)
    cases y with
    | cache owner k =>
      rw [heq] at hlt
      simp only [index] at hlt
      omega
    | _ => cases hfive
  have hvalid := h.rowValid hx
  cases x with
  | step i =>
    have hle := stepCount_le_index job.stepCount (Nat.ne_zero_of_lt hkind)
    rw [← heq] at hle
    exact absurd hvalid (Nat.not_lt.2 hle)
  | beforeStep i => cases y with
    | afterStep j =>
      simp only [index] at heq
      omega
    | completion k =>
      have hk : k < 2 := Nat.lt_of_lt_of_le (h.rowValid hy) (completions_le h.stage)
      simp only [index] at heq
      obtain ⟨rfl, rfl⟩ : i = 0 ∧ k = 0 := by omega
      exact hapart.beforeStep hx hy
    | cancel results k =>
      simp only [index] at heq
      exact ((hapart.cancel results k hy).2 i).1 (by omega) hx
    | cache owner k => exact hcache rfl
    | _ => exact absurd hkind (by simp [kind])
  | afterStep i => cases y with
    | completion k =>
      have hk : k < 2 := Nat.lt_of_lt_of_le (h.rowValid hy) (completions_le h.stage)
      simp only [index] at heq
      obtain ⟨rfl, rfl⟩ : i = 0 ∧ k = 1 := by omega
      exact hapart.afterStep hx hy
    | cancel results k =>
      simp only [index] at heq
      exact ((hapart.cancel results k hy).2 i).2 (by omega) hx
    | cache owner k => exact hcache rfl
    | _ => exact absurd hkind (by simp [kind])
  | completion k => cases y with
    | cancel results k' =>
      simp only [index] at heq
      obtain rfl : k = results + k' := by omega
      exact (hapart.cancel results k' hy).1 hx
    | cache owner k => exact hcache rfl
    | _ => exact absurd hkind (by simp [kind])
  | cancel results k => cases y with
    | cache owner k => exact hcache rfl
    | _ => exact absurd hkind (by simp [kind])
  | cache owner k => cases y <;> exact absurd hkind (by simp [kind])

theorem Indexed.nodup (h : s.Indexed job) : s.rows.Nodup :=
  nodup_iff_count_le_one.2 fun row => (Nat.le_add_right _ _).trans (h.once row)

/-- The indices are different if and only if the rows are apart. -/
theorem Indexed.nodup_iff_apart (h : s.Indexed job) :
    (s.rows.map (index job.stepCount)).Nodup ↔ s.Apart := by
  rw [nodup_map_iff_inj_on h.nodup]
  refine ⟨fun hinj =>
    ⟨fun hx hy => ?_, fun hx hy => ?_, fun results k hx => ⟨fun hy => ?_, fun i => ?_⟩, ?_⟩,
    fun hapart x hx y hy heq => ?_⟩
  · cases hinj _ hx _ hy (by simp [index])
  · cases hinj _ hx _ hy (by simp [index])
  · cases hinj _ hx _ hy (Nat.add_assoc _ _ _)
  · refine ⟨fun hi hy => ?_, fun hi hy => ?_⟩
    · cases hinj _ hx _ hy (by simp only [index]; omega)
    · cases hinj _ hx _ hy (by simp only [index]; omega)
  · intro owner owner' hlt
    by_contra hclash
    rw [not_or, Nat.not_le] at hclash
    have hx := h.caches owner _ hclash.2
    have hy := h.caches owner' 0 (Nat.pos_of_ne_zero hclash.1)
    obtain ⟨d, rfl⟩ := Nat.exists_eq_add_of_le hlt.le
    rw [Nat.add_sub_cancel_left] at hx
    have howner := hinj _ hx _ hy (by simp only [index, Nat.add_mul]; omega)
    injection howner with howner
    omega
  · rcases lt_trichotomy x.kind y.kind with hlt | hkind | hlt
    · exact absurd heq (hapart.index_ne h hx hy hlt)
    · exact hapart.eq_of_kind_eq h hx hy hkind heq
    · exact absurd heq.symm (hapart.index_ne h hy hx hlt)

end TimelineRun

open TimelineRun

variable {job : TimelineJob} {s : TimelineRun}

/-- In every run, the rows that have come have indices of their own if and only if they are apart. -/
theorem step_indices_nodup_iff_apart (h : (timelineSystem job).Reachable System.anyStep s) :
    (s.rows.map (index job.stepCount)).Nodup ↔ s.Apart := by
  refine Indexed.nodup_iff_apart (h.invariant ?_ fun s a t hs _ hstep => hs.step hstep)
  rintro s ⟨forceInitialFailure, rfl⟩
  exact Indexed.init job forceInitialFailure

/-! ## Two runs -/

/-- A job of one step with a cache, and its hooks. -/
def oneStep (hooks : JobHooks) : TimelineJob where
  nodes := [{ children := [{ stepIndex := 0, caches := 1 }] }]
  hooks
  indices := rfl

/-- A step with a hook before it, in a job that ends without one: all four rows have an index of
their own. -/
theorem step_indices_nodup_iff_apart_hook : ∃ s : TimelineRun,
    s.rows = [.beforeStep 0, .cache 1 0, .step 0, .cache 1 1] ∧
    ((s.rows.map (index 1)).Nodup ↔ s.Apart) := by
  obtain ⟨s, hpath, hend⟩ := (timelineSystem (oneStep { beforeStep := true })).exists_path_of_run
    System.anyStep_of_true
    (s := { nodes := (oneStep { beforeStep := true }).nodes, failed := false })
    (p := fun s => s.rows = [.beforeStep 0, .cache 1 0, .step 0, .cache 1 1])
    [.beginWalk, .nextNode, .begin (.runs 1), .op 0 true .passed, .op 0 true .passed, .op 0 true .passed,
      .op 0 true .passed, .op 0 true .passed, .endWalk] (by decide)
  exact ⟨s, of_decide_eq_true hend, step_indices_nodup_iff_apart ⟨_, ⟨false, rfl⟩, hpath⟩⟩

/-- A step with a hook before it, in a job with a hook on success: the two hooks have one index. -/
theorem exists_shared_step_index : ∃ s : TimelineRun,
    (timelineSystem (oneStep { beforeStep := true, onSuccess := true })).Reachable System.anyStep s ∧
    .beforeStep 0 ∈ s.rows ∧ .completion 0 ∈ s.rows ∧
    (beforeStep 0).index 1 = (completion 0).index 1 ∧
    ¬ (s.rows.map (index 1)).Nodup := by
  obtain ⟨s, hpath, hend⟩ :=
    (timelineSystem (oneStep { beforeStep := true, onSuccess := true })).exists_path_of_run
    System.anyStep_of_true
    (s := { nodes := (oneStep { beforeStep := true, onSuccess := true }).nodes, failed := false })
    (p := fun s => s.rows = [.beforeStep 0, .cache 1 0, .step 0, .completion 0])
    [.beginWalk, .nextNode, .begin (.runs 0), .op 0 true .passed, .op 0 true .passed, .op 0 true .passed,
      .op 0 true .passed, .endWalk, .completionHook, .op 0 true .passed] (by decide)
  have hrows := of_decide_eq_true hend
  refine ⟨s, ⟨_, ⟨false, rfl⟩, hpath⟩, ?_⟩
  rw [hrows]
  decide

end Kici
