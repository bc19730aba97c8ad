import Kici.Lock.Generated

/-!
# What a generated job carries

For a job that the compiler accepts, whose fields hold no functions and whose needs resolve, what
the agent writes for it has every field that the compiler writes (`Carries`) if and only if the job
is an invoke gate without a selector that declares none of the fields the agent leaves out, and
whose steps have nothing the agent leaves out and the same names (`carries_iff`). A job with
`runsOn` loses at least how an agent is picked, and one with an approval its gate
(`exists_gate_dropped`).
-/

namespace Kici.Lock

open List Option

variable {groupOrdinal : ℕ} {α : Type}

/-! ## Steps -/

/-- A step that has nothing the agent leaves out of a generated job. -/
structure Step.Plain (step : Step) : Prop where
  outputs : step.outputs ≠ some []
  continueOnError : step.continueOnError ≠ some false
  timeout : step.timeout ≠ some 0
  cache : step.cache = none
  sourceLocation : step.sourceLocation = none
  rules : ∀ rules, step.rules = some rules → rules = []
  onCancel : step.onCancel = false
  cleanup : step.cleanup = false
  check : step.check = false
  whenInSync : step.whenInSync = false
  approval : step.approval = none

/-- The author names the group, or its first step as the compiler numbers the group. -/
def GroupNamed (objects : StepObjects) (group : ParallelGroup) (groupOrdinal : ℕ) : Prop :=
  group.name.isSome = true ∨ ∃ ref, group.steps.head?.map (·.input) = some (.object ref) ∧
    (objects ref).name = js (toString groupOrdinal)

/-- The steps of a job have nothing that the agent leaves out, and the names that the compiler
gives. -/
structure StepsPlain (objects : StepObjects) (steps : List StepInput) : Prop where
  plain : ∀ ref, .object ref ∈ flatInputs steps → (objects ref).Plain
  groups : ∀ group groupOrdinal, (group, groupOrdinal) ∈ (groupsOf steps).zipIdx →
    GroupNamed objects group groupOrdinal
  names : ∀ (k : ℕ) (input : FlatStepInput), (flatInputs steps)[k]? = some input →
    input.anonymous objects = true →
    ((flatInputs steps).take k).countP (fun before => !before.anonymous objects) = 1

variable {host : CompilerHost} {objects : StepObjects} {counter position : ℕ} {input : FlatStepInput}
  {steps : List StepInput}

theorem filter_eq_self_iff {x : Option α} {p : α → Bool} :
    x = x.filter p ↔ ∀ a, x = some a → p a = true := by
  cases x with
  | none => exact ⟨nofun, fun _ => rfl⟩
  | some a =>
    rw [filter_some]
    cases hp : p a <;> simp [hp]

/-- What is computed for a field is absent if and only if the field is. -/
theorem mapM_eq_none_iff {α β ε : Type} {f : α → Except ε β} {x : Option α} {y : Option β}
    (h : x.mapM f = .ok y) : y = none ↔ x = none := by
  cases x with
  | none =>
    cases h
    exact ⟨fun _ => rfl, fun _ => rfl⟩
  | some a =>
    obtain ⟨b, -, h⟩ := bind_eq_ok h
    cases h
    exact ⟨nofun, nofun⟩

/-- The agent writes a step as the compiler does. -/
theorem step_eq_iff {lockStep : LockStep} {counter' : ℕ}
    (h : transformSequentialStep host objects counter input = .ok (lockStep, counter')) :
    lockStep = serializeSequentialStep objects position input ↔
      input.name objects (counter + 1) = input.name objects position ∧
        ∀ ref, input = .object ref → (objects ref).Plain := by
  cases input with
  | bare =>
    cases h
    simp [serializeSequentialStep, FlatStepInput.name]
  | object ref =>
    obtain ⟨-, -, h⟩ := bind_eq_ok h
    obtain ⟨approval, happroval, h⟩ := bind_eq_ok h
    cases h
    have hcontinue := filter_eq_self_iff (x := (objects ref).continueOnError) (p := (· = true))
    have htimeout := filter_eq_self_iff (x := (objects ref).timeout) (p := (· ≠ 0))
    rw [serializeSequentialStep, LockStep.mk.injEq]
    constructor
    · rintro ⟨hname, houtputs, hcontinued, htimed, -, hcache, hlocation, hrules, -, hcancel, hcleanup,
        hcheck, hsync, hnone⟩
      refine ⟨hname, fun ref' heq => ?_⟩
      cases heq
      refine ⟨fun hempty => ?_, fun hfalse => ?_, fun hzero => ?_, map_eq_none_iff.1 hcache,
        map_eq_none_iff.1 hlocation, fun rules hsome => ?_, hcancel, hcleanup, hcheck, hsync,
        (mapM_eq_none_iff happroval).1 hnone⟩
      · rw [hempty] at houtputs
        cases houtputs
      · cases of_decide_eq_true (hcontinue.1 hcontinued false hfalse)
      · exact of_decide_eq_true (htimeout.1 htimed 0 hzero) rfl
      · rw [hsome] at hrules
        exact eq_nil_of_length_eq_zero (Nat.eq_zero_of_not_pos (of_decide_eq_false hrules))
    · rintro ⟨hname, hplain⟩
      have hstep := hplain ref rfl
      have hrules : ∀ rules, (objects ref).rules = some rules → decide (0 < rules.length) = false := by
        intro rules hsome
        rw [hstep.rules rules hsome]
        rfl
      refine ⟨hname, ?_, hcontinue.2 fun b hsome => ?_, htimeout.2 fun n hsome => ?_,
        rfl, by rw [hstep.cache]; rfl, by rw [hstep.sourceLocation]; rfl, ?_, ?_, hstep.onCancel,
        hstep.cleanup, hstep.check, hstep.whenInSync, (mapM_eq_none_iff happroval).2 hstep.approval⟩
      · cases houtputs : (objects ref).outputs with
        | none => rfl
        | some keys =>
          cases keys with
          | nil => exact absurd houtputs hstep.outputs
          | cons key keys => rfl
      · cases b with
        | true => rfl
        | false => exact absurd hsome hstep.continueOnError
      · exact decide_eq_true fun hzero => hstep.timeout (hsome.trans (congrArg some hzero))
      · cases hsome : (objects ref).rules with
        | none => rfl
        | some rules => exact hrules rules hsome
      · cases hsome : (objects ref).rules with
        | none => rfl
        | some rules =>
          rw [filter_some, hrules rules hsome]
          rfl

theorem plain_cons {inputs : List FlatStepInput} :
    (∀ ref, .object ref ∈ input :: inputs → (objects ref).Plain) ↔
    (∀ ref, input = .object ref → (objects ref).Plain) ∧ ∀ ref, .object ref ∈ inputs →
    (objects ref).Plain := by
  refine ⟨fun h => ⟨fun ref heq => h ref (heq ▸ mem_cons_self), fun ref hmem =>
    h ref (mem_cons_of_mem _ hmem)⟩, fun ⟨hinput, hinputs⟩ ref hmem => ?_⟩
  rcases mem_cons.1 hmem with heq | hmem
  · exact hinput ref heq.symm
  · exact hinputs ref hmem

theorem plain_append {inputs inputs' : List FlatStepInput} :
    (∀ ref, .object ref ∈ inputs ++ inputs' → (objects ref).Plain) ↔
      (∀ ref, .object ref ∈ inputs → (objects ref).Plain) ∧ ∀ ref, .object ref ∈ inputs' →
      (objects ref).Plain := by
  refine ⟨fun h => ⟨fun ref hmem => h ref (mem_append_left _ hmem), fun ref hmem =>
    h ref (mem_append_right _ hmem)⟩, fun ⟨hinputs, hinputs'⟩ ref hmem => ?_⟩
  rcases mem_append.1 hmem with hmem | hmem
  · exact hinputs ref hmem
  · exact hinputs' ref hmem

theorem groupNamed_cons {group : ParallelGroup} {groups : List ParallelGroup} :
    (∀ group' k, (group', k) ∈ (group :: groups).zipIdx groupOrdinal → GroupNamed objects group' k) ↔
      GroupNamed objects group groupOrdinal ∧
        ∀ group' k, (group', k) ∈ groups.zipIdx (groupOrdinal + 1) → GroupNamed objects group' k := by
  rw [zipIdx_cons]
  refine ⟨fun h => ⟨h _ _ mem_cons_self, fun group' k hmem => h _ _ (mem_cons_of_mem _ hmem)⟩,
    fun ⟨hgroup, hgroups⟩ group' k hmem => ?_⟩
  rcases mem_cons.1 hmem with heq | hmem
  · cases heq
    exact hgroup
  · exact hgroups group' k hmem

theorem children_eq_iff {children : List GroupChild} {seen : List JsString}
    {lockChildren : List LockStep}
    {counter' : ℕ} (h : transformChildren host objects counter seen children = .ok
      (lockChildren, counter')) :
    lockChildren = serializeChildren objects position children ↔
      countedNames objects counter (children.map (·.input)) = positionNames objects position
      (children.map (·.input)) ∧
        ∀ ref, .object ref ∈ children.map (·.input) → (objects ref).Plain := by
  induction children generalizing counter position seen lockChildren with
  | nil =>
    cases h
    exact ⟨fun _ => ⟨rfl, nofun⟩, fun _ => rfl⟩
  | cons child children ih =>
    rw [transformChildren] at h
    split at h
    · cases h
    · obtain ⟨⟨lockChild, counter₁⟩, hchild, h⟩ := bind_eq_ok h
      dsimp only at h
      split at h
      · cases h
      · obtain ⟨⟨rest, counter₂⟩, hrest, h⟩ := bind_eq_ok h
        cases h
        obtain ⟨-, rfl⟩ := transformSequentialStep_ok hchild
        rw [serializeChildren, cons.injEq, step_eq_iff hchild, ih hrest, map_cons, countedNames,
          positionNames, cons.injEq, plain_cons]
        exact and_and_and_comm

/-- No number is written as the number of a step. -/
theorem stepName_ne_toString (m n : ℕ) : stepName m ≠ js (toString n) := by
  intro h
  have hs : js "step-" = 0x73 :: js "tep-" := by decide
  have hmem : (0x73 : UInt16) ∈ js (toString n) := by
    rw [← h, stepName, hs]
    exact mem_cons_self
  exact absurd (isDigit_of_mem_js_toString hmem) (by decide)

/-- The default name of a group is the same if its first step is named as the compiler numbers the
group. -/
theorem groupName_eq_iff {group : ParallelGroup} (hsteps : group.steps ≠ []) :
    group.name.getD (js "parallel-" ++ js (toString groupOrdinal)) = group.name.getD (js "parallel-" ++
      ((serializeChildren objects position group.steps).head?.map (·.name)).getD (js "group")) ↔
      GroupNamed objects group groupOrdinal := by
  obtain ⟨child, children, hcons⟩ := exists_cons_of_ne_nil hsteps
  cases hname : group.name with
  | some name => exact ⟨fun _ => .inl (by rw [hname]; rfl), fun _ => rfl⟩
  | none =>
    have hdefault : ((serializeChildren objects position group.steps).head?.map (·.name)).getD
      (js "group") =
        child.input.name objects position := by
      rw [hcons]
      exact name_serializeSequentialStep objects position child.input
    rw [hdefault, getD_none, getD_none, append_right_inj]
    refine ⟨fun heq => .inr ?_, fun hgroup => ?_⟩
    · cases hinput : child.input with
      | bare =>
        rw [hinput] at heq
        exact absurd heq.symm (stepName_ne_toString _ _)
      | object ref =>
        rw [hinput, FlatStepInput.name] at heq
        split at heq
        · exact absurd heq.symm (stepName_ne_toString _ _)
        · exact ⟨ref, by rw [hcons, head?_cons, map_some, hinput], heq.symm⟩
    · obtain hsome | ⟨ref, hhead, hobject⟩ := hgroup
      · rw [hname] at hsome
        cases hsome
      · rw [hcons, head?_cons, map_some, some.injEq] at hhead
        rw [hhead, FlatStepInput.name, if_neg, hobject]
        rw [hobject]
        exact js_toString_ne_nil groupOrdinal

theorem entries_eq_iff {entries : List LockStepEntry}
    (h : transformEntries host objects counter groupOrdinal steps = .ok entries) :
    entries = serializeEntries objects position steps ↔
      countedNames objects counter (flatInputs steps) = positionNames objects position
      (flatInputs steps) ∧
        (∀ ref, .object ref ∈ flatInputs steps → (objects ref).Plain) ∧
        ∀ group k, (group, k) ∈ (groupsOf steps).zipIdx groupOrdinal → GroupNamed objects group k := by
  induction steps generalizing counter position groupOrdinal entries with
  | nil =>
    cases h
    exact ⟨fun _ => ⟨rfl, nofun, fun _ _ hmem =>
      absurd hmem (not_mem_nil)⟩, fun _ => rfl⟩
  | cons entry steps ih =>
    cases entry with
    | flat input =>
      obtain ⟨⟨lockStep, counter₁⟩, hstep, h⟩ := bind_eq_ok h
      obtain ⟨rest, hrest, h⟩ := bind_eq_ok h
      cases h
      obtain ⟨-, rfl⟩ := transformSequentialStep_ok hstep
      rw [serializeEntries, cons.injEq, LockStepEntry.sequential.injEq, step_eq_iff hstep, ih hrest,
        flatInputs_flat, countedNames, positionNames, cons.injEq, plain_cons]
      constructor
      · rintro ⟨⟨hname, hstep⟩, hnames, hsteps, hgroups⟩
        exact ⟨⟨hname, hnames⟩, ⟨hstep, hsteps⟩, hgroups⟩
      · rintro ⟨⟨hname, hnames⟩, ⟨hstep, hsteps⟩, hgroups⟩
        exact ⟨⟨hname, hstep⟩, hnames, hsteps, hgroups⟩
    | parallel group =>
      obtain ⟨⟨lockGroup, counter₁⟩, hgroup, h⟩ := bind_eq_ok h
      obtain ⟨rest, hrest, h⟩ := bind_eq_ok h
      cases h
      rw [transformParallelGroup] at hgroup
      split at hgroup
      · cases hgroup
      next hsteps =>
        obtain ⟨⟨children, counter₂⟩, hchildren, hgroup⟩ := bind_eq_ok hgroup
        cases hgroup
        obtain ⟨-, rfl⟩ := transformChildren_ok hchildren
        rw [serializeEntries, cons.injEq, LockStepEntry.parallel.injEq, LockParallelStep.mk.injEq,
          groupName_eq_iff hsteps, children_eq_iff hchildren, ih hrest, flatInputs_parallel,
            countedNames_append,
          positionNames_append, length_map, plain_append]
        have hgroups : groupsOf (.parallel group :: steps) = group :: groupsOf steps := rfl
        have hlength : (countedNames objects counter (group.steps.map (·.input))).length =
            (positionNames objects position (group.steps.map (·.input))).length := by
          rw [length_countedNames, length_positionNames]
        rw [hgroups, groupNamed_cons]
        constructor
        · rintro ⟨⟨hnamed, -, -, hnames, hsteps⟩, hnames', hsteps', hgroups'⟩
          exact ⟨by rw [hnames, hnames'], ⟨hsteps, hsteps'⟩, hnamed, hgroups'⟩
        · rintro ⟨hnames, ⟨hsteps, hsteps'⟩, hnamed, hgroups'⟩
          obtain ⟨hchildrenNames, hrestNames⟩ := append_inj hnames hlength
          exact ⟨⟨hnamed, rfl, rfl, hchildrenNames, hsteps⟩, hrestNames, hsteps', hgroups'⟩

theorem steps_eq_iff {entries : List LockStepEntry}
    (h : transformSteps host objects steps = .ok entries) :
    entries = serializeSteps objects steps ↔ StepsPlain objects steps := by
  have hnames := @countedNames_eq_positionNames_iff objects (flatInputs steps) 0 0
  rw [serializeSteps, entries_eq_iff h, ← Nat.zero_add 0, hnames]
  simp only [Nat.zero_add]
  constructor
  · rintro ⟨hnames, hplain, hgroups⟩
    exact ⟨hplain, hgroups, hnames⟩
  · exact fun h => ⟨h.names, h.plain, h.groups⟩

/-! ## Jobs -/

/-- A field that is written is written as it was. -/
def Carried (x y : Option α) : Prop := ∀ a, x = some a → y = some a

theorem Carried.refl (x : Option α) : Carried x x := fun _ h => h

theorem carried_none_iff {x : Option α} : Carried x none ↔ x = none := by
  cases x with
  | none => exact ⟨fun _ => rfl, fun _ a h => h⟩
  | some a => exact ⟨fun h => (h a rfl).symm, nofun⟩

/-- Every field of the lock is in the lock of the generated job. -/
structure Carries (lock generated : LockJob) : Prop where
  name : generated.name = lock.name
  runsOn : Carried lock.runsOn generated.runsOn
  excludeLabels : Carried lock.excludeLabels generated.excludeLabels
  runsOnPick : Carried lock.runsOnPick generated.runsOnPick
  runsOnAll : Carried lock.runsOnAll generated.runsOnAll
  onUnreachable : Carried lock.onUnreachable generated.onUnreachable
  includeUninitialized : Carried lock.includeUninitialized generated.includeUninitialized
  gitCredentials : Carried lock.gitCredentials generated.gitCredentials
  maxParallel : Carried lock.maxParallel generated.maxParallel
  failFast : Carried lock.failFast generated.failFast
  invoke : Carried lock.invoke generated.invoke
  needs : generated.needs = lock.needs
  dependsOnGroups : Carried lock.dependsOnGroups generated.dependsOnGroups
  steps : generated.steps = lock.steps
  matrix : Carried lock.matrix generated.matrix
  included : Carried lock.included generated.included
  excluded : Carried lock.excluded generated.excluded
  rules : Carried lock.rules generated.rules
  description : Carried lock.description generated.description
  checkout : Carried lock.checkout generated.checkout
  cache : Carried lock.cache generated.cache
  container : Carried lock.container generated.container
  sandbox : Carried lock.sandbox generated.sandbox
  contexts : Carried lock.contexts generated.contexts
  env : Carried lock.env generated.env
  dynamicEnv : Carried lock.dynamicEnv generated.dynamicEnv
  concurrencyGroup : Carried lock.concurrencyGroup generated.concurrencyGroup
  dynamicConcurrencyGroup : Carried lock.dynamicConcurrencyGroup generated.dynamicConcurrencyGroup
  hasOnCancel : Carried lock.hasOnCancel generated.hasOnCancel
  hasCleanup : Carried lock.hasCleanup generated.hasCleanup
  hasOnSuccess : Carried lock.hasOnSuccess generated.hasOnSuccess
  hasOnFailure : Carried lock.hasOnFailure generated.hasOnFailure
  hasBeforeStep : Carried lock.hasBeforeStep generated.hasBeforeStep
  hasAfterStep : Carried lock.hasAfterStep generated.hasAfterStep
  gracePeriod : Carried lock.gracePeriod generated.gracePeriod
  timeout : Carried lock.timeout generated.timeout
  resources : Carried lock.resources generated.resources
  init : Carried lock.init generated.init
  approval : Carried lock.approval generated.approval

/-- No field of the job holds a function, but for the bodies of its steps, its hooks and its rules. -/
structure Job.NoFunctions (job : Job) : Prop where
  contexts : ∀ ref ∈ contextRefs job, ∃ name, ref = .value name
  env : ∀ env, job.env = some env → ∃ entries, env = .value entries
  concurrencyGroup : ∀ group, job.concurrencyGroup = some group → ∃ name, group = .value name
  matrix : ∀ matrix, job.matrix = some matrix → ∃ values, matrix = .value values

/-- The job declares nothing that the agent leaves out. -/
structure Job.Plain (objects : StepObjects) (job : Job) : Prop where
  runsOn : job.runsOn = none
  runsOnAll : job.runsOnAll = none
  onUnreachable : job.onUnreachable = none
  includeUninitialized : job.includeUninitialized = none
  gitCredentials : job.gitCredentials = none
  maxParallel : job.maxParallel = none
  failFast : job.failFast = none
  rules : job.rules = none
  description : job.description ≠ some []
  checkout : job.checkout = none
  cache : job.cache = none
  container : job.container = none
  sandbox : job.sandbox = none
  onCancel : job.onCancel = false
  cleanup : job.cleanup = false
  onSuccess : job.onSuccess = false
  onFailure : job.onFailure = false
  beforeStep : job.beforeStep = false
  afterStep : job.afterStep = false
  gracePeriod : job.gracePeriod = none
  timeout : job.timeout = none
  resources : job.resources = none
  init : job.init = none
  approval : job.approval = none
  steps : StepsPlain objects job.steps

variable {labels : LabelHost} {configPath : JsString} {index : ℕ} {job : Job} {lock : LockJob}
  {targets : NeedTargets} {needs : List LockNeed}

theorem resolveNeed_eq {need : Need} {lockNeed : LockNeed}
    (h : targets.resolveNeed need = .ok lockNeed) :
    lockNeed = resolveNeedForLock (fun _ => none) need := by
  cases need <;> obtain ⟨-, -, h⟩ := bind_eq_ok h <;> cases h <;> rfl

/-- The needs that resolve are those of the compiler. -/
theorem resolveNeeds_eq {declared : Option (List Need)} (h : targets.resolveNeeds declared = .ok needs) :
    needs = (resolveNeedsForLock (fun _ => none) declared).1 :=
  mapM_eq_ok h fun _ _ => resolveNeed_eq

theorem resolveContexts_eq {refs : List (Dynamic JsString)}
    (h : ∀ ref ∈ refs, ∃ name, ref = .value name) :
    resolveContexts refs = .ok (refs.map transformContextRef) := by
  induction refs with
  | nil => rfl
  | cons ref refs ih =>
    obtain ⟨name, rfl⟩ := h ref mem_cons_self
    rw [resolveContexts, ih fun ref hmem => h ref (mem_cons_of_mem _ hmem)]
    rfl

theorem resolveField_eq {field : Option (Dynamic α)} (h : ∀ x, field = some x → ∃ a, x = .value a) :
    resolveField field = .ok (field.bind (·.value?)) ∧ field.bind (·.mark) = none := by
  cases field with
  | none => exact ⟨rfl, rfl⟩
  | some x =>
    obtain ⟨a, rfl⟩ := h x rfl
    exact ⟨rfl, rfl⟩

theorem serializeMatrix_eq (configPath jobName : JsString) {matrix : Option (Dynamic MatrixValues)}
    (h : ∀ x, matrix = some x → ∃ values, x = .value values) :
    matrix.mapM (serializeMatrix jobName) = .ok (matrix.map (transformMatrix jobName configPath)) := by
  cases matrix with
  | none => rfl
  | some x =>
    obtain ⟨values, rfl⟩ := h x rfl
    rfl

theorem hookFlag_eq_none_iff {hook : Bool} : hookFlag hook = none ↔ hook = false := by
  cases hook with
  | true => exact ⟨nofun, nofun⟩
  | false => exact ⟨fun _ => rfl, fun _ => rfl⟩

/-- What is left out of a generated job the job does not declare. -/
theorem Carries.plain {generated : LockJob} (hcarries : Carries lock generated)
    (h : transformJob host labels objects configPath index (fun _ => none) job = .ok lock)
    (hgenerated : serializeJob labels objects targets job = .ok generated) : job.Plain objects := by
  obtain ⟨-, -, h⟩ := bind_eq_ok h
  obtain ⟨-, -, h⟩ := bind_eq_ok h
  obtain ⟨runsOn, -, h⟩ := bind_eq_ok h
  obtain ⟨runsOnAll, hrunsOnAll, h⟩ := bind_eq_ok h
  obtain ⟨steps, hsteps, h⟩ := bind_eq_ok h
  obtain ⟨approval, happroval, h⟩ := bind_eq_ok h
  cases h
  obtain ⟨⟨matchers, excludeLabels⟩, -, hgenerated⟩ := bind_eq_ok hgenerated
  obtain ⟨contexts, -, hgenerated⟩ := bind_eq_ok hgenerated
  obtain ⟨env, -, hgenerated⟩ := bind_eq_ok hgenerated
  obtain ⟨group, -, hgenerated⟩ := bind_eq_ok hgenerated
  obtain ⟨matrix, -, hgenerated⟩ := bind_eq_ok hgenerated
  obtain ⟨needs, -, hgenerated⟩ := bind_eq_ok hgenerated
  cases hgenerated
  exact {
    runsOn := map_eq_none_iff.1 (carried_none_iff.1 hcarries.runsOnPick)
    runsOnAll := (mapM_eq_none_iff hrunsOnAll).1 (carried_none_iff.1 hcarries.runsOnAll)
    onUnreachable := carried_none_iff.1 hcarries.onUnreachable
    includeUninitialized := carried_none_iff.1 hcarries.includeUninitialized
    gitCredentials := carried_none_iff.1 hcarries.gitCredentials
    maxParallel := carried_none_iff.1 hcarries.maxParallel
    failFast := carried_none_iff.1 hcarries.failFast
    rules := map_eq_none_iff.1 (carried_none_iff.1 hcarries.rules)
    description := fun hempty => by
      have hdescription := hcarries.description [] hempty
      rw [hempty] at hdescription
      cases hdescription
    checkout := carried_none_iff.1 hcarries.checkout
    cache := map_eq_none_iff.1 (carried_none_iff.1 hcarries.cache)
    container := carried_none_iff.1 hcarries.container
    sandbox := carried_none_iff.1 hcarries.sandbox
    onCancel := hookFlag_eq_none_iff.1 (carried_none_iff.1 hcarries.hasOnCancel)
    cleanup := hookFlag_eq_none_iff.1 (carried_none_iff.1 hcarries.hasCleanup)
    onSuccess := hookFlag_eq_none_iff.1 (carried_none_iff.1 hcarries.hasOnSuccess)
    onFailure := hookFlag_eq_none_iff.1 (carried_none_iff.1 hcarries.hasOnFailure)
    beforeStep := hookFlag_eq_none_iff.1 (carried_none_iff.1 hcarries.hasBeforeStep)
    afterStep := hookFlag_eq_none_iff.1 (carried_none_iff.1 hcarries.hasAfterStep)
    gracePeriod := carried_none_iff.1 hcarries.gracePeriod
    timeout := carried_none_iff.1 hcarries.timeout
    resources := carried_none_iff.1 hcarries.resources
    init := carried_none_iff.1 hcarries.init
    approval := (mapM_eq_none_iff happroval).1 (carried_none_iff.1 hcarries.approval)
    steps := (steps_eq_iff hsteps).1 hcarries.steps.symm }

/-- A job without a selector that the compiler accepts is an invoke gate. -/
theorem isSome_invoke (h : checkJob labels job = .ok ()) (hrunsOn : job.runsOn = none)
    (hall : job.runsOnAll = none) : job.invoke.isSome = true := by
  cases hinvoke : job.invoke with
  | some invoke => rfl
  | none =>
    rw [checkJob, hrunsOn, hall, hinvoke] at h
    cases h

/-- The agent writes all of a job that declares nothing it leaves out. -/
theorem Job.Plain.carries (hplain : job.Plain objects) (hfunctions : job.NoFunctions)
    (hneeds : targets.resolveNeeds job.needs = .ok needs)
    (h : transformJob host labels objects configPath index (fun _ => none) job = .ok lock) :
    ∃ generated, serializeJob labels objects targets job = .ok generated ∧ Carries lock generated := by
  obtain ⟨⟨⟩, hcheck, h⟩ := bind_eq_ok h
  obtain ⟨-, -, h⟩ := bind_eq_ok h
  obtain ⟨runsOn, hrunsOn, h⟩ := bind_eq_ok h
  obtain ⟨runsOnAll, hrunsOnAll, h⟩ := bind_eq_ok h
  obtain ⟨steps, hsteps, h⟩ := bind_eq_ok h
  obtain ⟨approval, happroval, h⟩ := bind_eq_ok h
  cases h
  have hinvoke := isSome_invoke hcheck hplain.runsOn hplain.runsOnAll
  obtain rfl := (mapM_eq_none_iff hrunsOn).2 hplain.runsOn
  obtain rfl := (mapM_eq_none_iff hrunsOnAll).2 hplain.runsOnAll
  obtain rfl := (mapM_eq_none_iff happroval).2 hplain.approval
  obtain rfl := resolveNeeds_eq hneeds
  obtain ⟨henv, hmark⟩ := resolveField_eq hfunctions.env
  obtain ⟨hgroup, hgroupMark⟩ := resolveField_eq hfunctions.concurrencyGroup
  have hmatchers : serializeRunsOn labels job = .ok ([], []) := by
    rw [serializeRunsOn, hplain.runsOn]
    exact if_pos hinvoke
  refine ⟨_, bind_ok hmatchers
    (bind_ok (resolveContexts_eq hfunctions.contexts) (bind_ok henv (bind_ok hgroup
    (bind_ok (serializeMatrix_eq configPath job.name hfunctions.matrix) (bind_ok hneeds rfl))))), ?_⟩
  exact {
    name := rfl
    runsOn := nofun
    excludeLabels := nofun
    runsOnPick := carried_none_iff.2 (map_eq_none_iff.2 hplain.runsOn)
    runsOnAll := nofun
    onUnreachable := carried_none_iff.2 hplain.onUnreachable
    includeUninitialized := carried_none_iff.2 hplain.includeUninitialized
    gitCredentials := carried_none_iff.2 hplain.gitCredentials
    maxParallel := carried_none_iff.2 hplain.maxParallel
    failFast := carried_none_iff.2 hplain.failFast
    invoke := Carried.refl _
    needs := rfl
    dependsOnGroups := Carried.refl _
    steps := ((steps_eq_iff hsteps).2 hplain.steps).symm
    matrix := Carried.refl _
    included := Carried.refl _
    excluded := Carried.refl _
    rules := carried_none_iff.2 (map_eq_none_iff.2 hplain.rules)
    description := fun description h => by
      have hnonempty : description ≠ [] := fun hempty => hplain.description (hempty ▸ h)
      rw [show job.description = some description from h]
      exact if_pos (decide_eq_true hnonempty)
    checkout := carried_none_iff.2 hplain.checkout
    cache := carried_none_iff.2 (map_eq_none_iff.2 hplain.cache)
    container := carried_none_iff.2 hplain.container
    sandbox := carried_none_iff.2 hplain.sandbox
    contexts := fun contexts h => by
      dsimp only at h ⊢
      split at h
      · cases h
      · rw [if_neg (by rwa [map_eq_nil_iff]), h]
    env := Carried.refl _
    dynamicEnv := carried_none_iff.2 hmark
    concurrencyGroup := Carried.refl _
    dynamicConcurrencyGroup := carried_none_iff.2 hgroupMark
    hasOnCancel := carried_none_iff.2 (hookFlag_eq_none_iff.2 hplain.onCancel)
    hasCleanup := carried_none_iff.2 (hookFlag_eq_none_iff.2 hplain.cleanup)
    hasOnSuccess := carried_none_iff.2 (hookFlag_eq_none_iff.2 hplain.onSuccess)
    hasOnFailure := carried_none_iff.2 (hookFlag_eq_none_iff.2 hplain.onFailure)
    hasBeforeStep := carried_none_iff.2 (hookFlag_eq_none_iff.2 hplain.beforeStep)
    hasAfterStep := carried_none_iff.2 (hookFlag_eq_none_iff.2 hplain.afterStep)
    gracePeriod := carried_none_iff.2 hplain.gracePeriod
    timeout := carried_none_iff.2 hplain.timeout
    resources := carried_none_iff.2 hplain.resources
    init := carried_none_iff.2 hplain.init
    approval := nofun }

/-- What is written for every job is what the job alone gives. -/
theorem serializeJobsToLock_getElem {staticNames allowedGroups seenNames : List JsString}
    {jobs : List Job} {locks : List LockJob} {i : ℕ} {generated : LockJob}
    (h : serializeJobsToLock labels objects staticNames allowedGroups seenNames jobs = .ok locks)
    (hjob : jobs[i]? = some job) (hgenerated : locks[i]? = some generated) :
    serializeJob labels objects ⟨jobs.map (·.name), staticNames, allowedGroups⟩ job = .ok generated := by
  rw [serializeJobsToLock] at h
  split at h
  · cases h
  · obtain ⟨-, -, h⟩ := bind_eq_ok h
    exact getElem?_of_mapM_eq_ok h hjob hgenerated

/-- For a job that the compiler accepts, without functions and whose needs resolve, the agent writes
a job with all that the compiler writes if and only if the job is plain; and so it is for every job
of a list that is written. -/
theorem carries_iff {staticNames allowedGroups : List JsString} {jobs : List Job}
    (seenNames : List JsString) (hfunctions : job.NoFunctions)
    (hneeds : NeedTargets.resolveNeeds ⟨jobs.map (·.name), staticNames, allowedGroups⟩
      job.needs = .ok needs)
    (h : transformJob host labels objects configPath index (fun _ => none) job = .ok lock) :
    ((∃ generated, serializeJob labels objects ⟨jobs.map (·.name), staticNames, allowedGroups⟩ job =
      .ok generated ∧ Carries lock generated) ↔ job.Plain objects) ∧
    ∀ (locks : List LockJob) (i : ℕ) (generated : LockJob),
      serializeJobsToLock labels objects staticNames allowedGroups seenNames jobs = .ok locks →
      jobs[i]? = some job →
      locks[i]? = some generated → (Carries lock generated ↔ job.Plain objects) := by
  have hiff : (∃ generated,
    serializeJob labels objects ⟨jobs.map (·.name), staticNames, allowedGroups⟩ job =
      .ok generated ∧ Carries lock generated) ↔ job.Plain objects :=
    ⟨fun ⟨_, hgenerated, hcarries⟩ => hcarries.plain h hgenerated, fun hplain =>
      hplain.carries hfunctions hneeds h⟩
  refine ⟨hiff, fun locks i generated hlocks hjob hget => ?_⟩
  have hgenerated := serializeJobsToLock_getElem hlocks hjob hget
  rw [← hiff]
  refine ⟨fun hcarries => ⟨generated, hgenerated, hcarries⟩,
    fun ⟨generated', hgenerated', hcarries⟩ => ?_⟩
  rw [hgenerated, Except.ok.injEq] at hgenerated'
  exact hgenerated' ▸ hcarries

def announceSteps : StepObjects := fun _ => { name := js "announce" }

/-- A gate that waits for a build and a group of tests, with a step and a bare function. -/
def gateJob : Job where
  name := js "notify"
  invoke := some { event := js "released", scope := js "repo" }
  needs := some [.text (js "build"), .groupEntry (js "tests") (some (.keyword .always))]
  steps := [.flat (.object 0), .flat .bare]

theorem gateJob_plain : gateJob.Plain announceSteps where
  runsOn := rfl
  runsOnAll := rfl
  onUnreachable := rfl
  includeUninitialized := rfl
  gitCredentials := rfl
  maxParallel := rfl
  failFast := rfl
  rules := rfl
  description := by decide
  checkout := rfl
  cache := rfl
  container := rfl
  sandbox := rfl
  onCancel := rfl
  cleanup := rfl
  onSuccess := rfl
  onFailure := rfl
  beforeStep := rfl
  afterStep := rfl
  gracePeriod := rfl
  timeout := rfl
  resources := rfl
  init := rfl
  approval := rfl
  steps := {
    plain := fun _ _ => ⟨nofun, nofun, nofun, rfl, rfl, nofun, rfl, rfl, rfl, rfl, rfl⟩
    groups := nofun
    names := fun k input hget hanonymous => by
      match k with
      | 0 =>
        cases hget
        exact absurd hanonymous (by decide)
      | 1 => rfl
      | k + 2 => cases hget }

/-- The gate with its needs and its steps is written as the compiler writes it. -/
theorem carries_iff_gate : ∃ lock generated,
    transformJob plainHost plainLabels announceSteps [] 0 (fun _ => none) gateJob = .ok lock ∧
    serializeJob plainLabels announceSteps ⟨[gateJob].map (·.name), [js "build"], [js "tests"]⟩ gateJob =
      .ok generated ∧ generated.needs.length = 2 ∧ generated.steps.length = 2 ∧
      Carries lock generated := by
  have hfunctions : gateJob.NoFunctions := ⟨nofun, nofun,
    nofun, nofun⟩
  have hneeds : NeedTargets.resolveNeeds ⟨[gateJob].map (·.name), [js "build"], [js "tests"]⟩
    gateJob.needs =
      .ok _ := rfl
  have h : transformJob plainHost plainLabels announceSteps [] 0 (fun _ => none) gateJob = .ok _ := rfl
  obtain ⟨generated, hgenerated, hcarries⟩ := (carries_iff [] hfunctions hneeds h).1.2 gateJob_plain
  refine ⟨_, generated, rfl, hgenerated, ?_, ?_, hcarries⟩
  · rw [hcarries.needs]
    rfl
  · rw [hcarries.steps]
    rfl

/-- A job on Linux that waits for an approval, and stops after a minute. -/
def deployJob : Job :=
  { name := js "deploy", runsOn := some (.short (.one (.text "linux"))), approval := some .anyone,
    timeout := some 60 }

/-- The generated job waits for no approval, has no time limit, and does not say how an agent is
picked. -/
theorem exists_gate_dropped : deployJob.NoFunctions ∧ ∃ lock generated,
    transformJob plainHost plainLabels (fun _ => { name := [] }) [] 0 (fun _ => none)
    deployJob = .ok lock ∧
    serializeJobsToLock plainLabels (fun _ => { name := [] }) [] [] [] [deployJob] = .ok [generated] ∧
    lock.approval = some { clauses := [], «when» := .always } ∧ generated.approval = none ∧
    lock.timeout = some 60 ∧ generated.timeout = none ∧
    lock.runsOnPick = some .deterministic ∧ generated.runsOnPick = none ∧ ¬ Carries lock generated := by
  refine ⟨⟨nofun, nofun, nofun,
    nofun⟩, _, _, rfl, rfl, rfl, rfl, rfl, rfl, rfl, rfl, fun h => ?_⟩
  cases h.approval _ rfl

end Kici.Lock
