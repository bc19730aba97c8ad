import Kici.Foundation.Except
import Kici.Lock.Steps

/-!
# The names of steps

An agent names the steps of a job as it comes to them (`coerceStep`): a bare function, and a step
without a name, gets the next number, and a step object keeps the name it was given, so that one
that comes again is cloned under a number of its own. Names are read off the objects afterwards
(`extractAndNormalizeSteps`).

The flat sequence of names is that of the compiler whenever it accepts the steps
(`flatNames_transformSteps`). That of a generated job is the same if and only if every step without
a name has exactly one with a name before it, and a group has the same name for all three if and
only if the author names it (`stepsAlike_iff`).
-/

namespace Kici.Lock

open List FlatStepInput Function

variable {entries : List LockStepEntry} {s : CoerceState}

/-! ## The agent -/

/-- A step the agent runs: one that was made for a function or as a clone, or an object of the
author. -/
inductive CoercedStep
  | made (name : JsString)
  | object (ref : ℕ)

/-- The counter, the names of the objects as they are now, and which of them got their name here. -/
structure CoerceState where
  counter : ℕ := 0
  names : ℕ → JsString
  autoNamed : List ℕ := []

def coerceStep (s : CoerceState) : FlatStepInput → CoercedStep × CoerceState
  | .bare => (.made (stepName (s.counter + 1)), { s with counter := s.counter + 1 })
  | .object ref =>
    if s.names ref = [] then
      (.object ref, {
        counter := s.counter + 1
        names := update s.names ref (stepName (s.counter + 1))
        autoNamed := ref :: s.autoNamed })
    else if ref ∈ s.autoNamed then
      (.made (stepName (s.counter + 1)), { s with counter := s.counter + 1 })
    else (.object ref, s)

structure IndexedStep where
  step : CoercedStep
  stepIndex : ℕ

inductive StepNode
  | sequential (step : IndexedStep)
  | parallel (groupId name : JsString) (failFast : Bool) (maxParallel : Option Rat)
    (children : List IndexedStep)

def coerceChildren (s : CoerceState) (flatIndex : ℕ) : List GroupChild → List IndexedStep × CoerceState
  | [] => ([], s)
  | child :: rest =>
    let (step, s) := coerceStep s child.input
    let (children, s) := coerceChildren s (flatIndex + 1) rest
    (⟨step, flatIndex⟩ :: children, s)

def coerceEntries (s : CoerceState) (flatIndex groupOrdinal : ℕ) : List StepInput →
    List StepNode × CoerceState
  | [] => ([], s)
  | .flat input :: rest =>
    let (step, s) := coerceStep s input
    let (nodes, s) := coerceEntries s (flatIndex + 1) groupOrdinal rest
    (.sequential ⟨step, flatIndex⟩ :: nodes, s)
  | .parallel group :: rest =>
    let groupId := js "g" ++ js (toString groupOrdinal)
    let (children, s) := coerceChildren s flatIndex group.steps
    let (nodes, s) := coerceEntries s (flatIndex + group.steps.length) (groupOrdinal + 1) rest
    (.parallel groupId (group.name.getD groupId) group.failFast group.maxParallel children :: nodes, s)

/-- The nodes, and the names of the objects afterwards. -/
def extractAndNormalizeSteps (objects : StepObjects) (steps : List StepInput) :
    List StepNode × CoerceState :=
  coerceEntries { names := fun ref => (objects ref).name } 0 0 steps

/-! ## What is compared -/

def CoercedStep.name (names : ℕ → JsString) : CoercedStep → JsString
  | made name => name
  | object ref => names ref

def StepNode.steps : StepNode → List IndexedStep
  | sequential step => [step]
  | parallel _ _ _ _ children => children

def StepNode.groupName? : StepNode → Option JsString
  | sequential _ => none
  | parallel _ name _ _ _ => some name

def LockStepEntry.steps : LockStepEntry → List LockStep
  | sequential step => [step]
  | parallel group => group.children

def LockStepEntry.groupName? : LockStepEntry → Option JsString
  | sequential _ => none
  | parallel group => some group.name

/-- The flat sequence of the lock: a step has its position as its index. -/
def lockSequence (entries : List LockStepEntry) : List (ℕ × JsString) :=
  ((entries.flatMap (·.steps)).map (·.name)).zipIdx.map Prod.swap

/-- The flat sequence of the agent. -/
def agentSequence (objects : StepObjects) (steps : List StepInput) : List (ℕ × JsString) :=
  let (nodes, s) := extractAndNormalizeSteps objects steps
  (nodes.flatMap (·.steps)).map fun indexed => (indexed.stepIndex, indexed.step.name s.names)

/-- The lock and the agent have the same steps, and groups of the same names. -/
structure Alike (objects : StepObjects) (steps : List StepInput) (entries : List LockStepEntry) :
    Prop where
  sequence : agentSequence objects steps = lockSequence entries
  groups : (extractAndNormalizeSteps objects steps).1.filterMap (·.groupName?) = entries.filterMap
    (·.groupName?)

/-- The steps of a static job, if the compiler accepts them, and of a generated job are those of the
agent. -/
def StepsAlike (host : CompilerHost) (objects : StepObjects) (steps : List StepInput) : Prop :=
  (∀ entries, transformSteps host objects steps = .ok entries → Alike objects steps entries) ∧
    Alike objects steps (serializeSteps objects steps)

/-! ## Numbering -/

/-- A step without a name. -/
def FlatStepInput.anonymous (objects : StepObjects) : FlatStepInput → Bool
  | bare => true
  | object ref => (objects ref).name = []

def FlatStepInput.name (objects : StepObjects) (n : ℕ) : FlatStepInput → JsString
  | bare => stepName n
  | object ref => if (objects ref).name = [] then stepName n else (objects ref).name

/-- The counter of steps without a name after a list of steps. -/
def counterAfter (objects : StepObjects) (counter : ℕ) (inputs : List FlatStepInput) : ℕ :=
  counter + inputs.countP (·.anonymous objects)

/-- The names that the counter gives. -/
def countedNames (objects : StepObjects) (counter : ℕ) : List FlatStepInput → List JsString
  | [] => []
  | input :: rest =>
    input.name objects (counter + 1) :: countedNames objects (counterAfter objects counter [input]) rest

/-- The names that positions give. -/
def positionNames (objects : StepObjects) (position : ℕ) : List FlatStepInput → List JsString
  | [] => []
  | input :: rest => input.name objects position :: positionNames objects (position + 1) rest

variable {host : CompilerHost} {objects : StepObjects} {counter : ℕ} {input : FlatStepInput}
  {inputs inputs' : List FlatStepInput} {steps : List StepInput}

theorem counterAfter_anonymous (h : input.anonymous objects) :
    counterAfter objects counter [input] = counter + 1 := by
  rw [counterAfter, countP_singleton, if_pos h]

theorem counterAfter_named (h : input.anonymous objects = false) :
    counterAfter objects counter [input] = counter := by
  rw [counterAfter, countP_singleton, if_neg (by simp [h]), Nat.add_zero]

theorem counterAfter_append (inputs inputs' : List FlatStepInput) :
    counterAfter objects counter (inputs ++ inputs') =
    counterAfter objects (counterAfter objects counter inputs) inputs' := by
  rw [counterAfter, counterAfter, counterAfter, countP_append, Nat.add_assoc]

theorem counterAfter_cons (input : FlatStepInput) (inputs : List FlatStepInput) :
    counterAfter objects counter (input :: inputs) =
      counterAfter objects (counterAfter objects counter [input]) inputs :=
  counterAfter_append [input] inputs

theorem countedNames_append : countedNames objects counter (inputs ++ inputs') =
    countedNames objects counter inputs ++ countedNames objects (counterAfter objects counter inputs)
    inputs' := by
  induction inputs generalizing counter with
  | nil => rfl
  | cons input inputs ih =>
    rw [cons_append, countedNames, ih, countedNames, counterAfter_cons input inputs, cons_append]

theorem length_countedNames (objects : StepObjects) (counter : ℕ) (inputs : List FlatStepInput) :
    (countedNames objects counter inputs).length = inputs.length := by
  induction inputs generalizing counter with
  | nil => rfl
  | cons input inputs ih => exact congrArg (· + 1) (ih _)

theorem length_positionNames (objects : StepObjects) (position : ℕ) (inputs : List FlatStepInput) :
    (positionNames objects position inputs).length = inputs.length := by
  induction inputs generalizing position with
  | nil => rfl
  | cons input inputs ih => exact congrArg (· + 1) (ih _)

theorem positionNames_append {position : ℕ} : positionNames objects position (inputs ++ inputs') =
    positionNames objects position inputs ++ positionNames objects (position + inputs.length)
    inputs' := by
  induction inputs generalizing position with
  | nil => rfl
  | cons input inputs ih =>
    rw [cons_append, positionNames, ih, positionNames, length_cons, cons_append, Nat.add_right_comm,
      Nat.add_assoc]

/-! ### Generated jobs -/

theorem name_serializeSequentialStep (objects : StepObjects) (index : ℕ) (input : FlatStepInput) :
    (serializeSequentialStep objects index input).name = input.name objects index := by
  cases input <;> rfl

theorem names_serializeChildren (objects : StepObjects) (flatIndex : ℕ) (children : List GroupChild) :
    (serializeChildren objects flatIndex children).map (·.name) =
      positionNames objects flatIndex (children.map (·.input)) := by
  induction children generalizing flatIndex with
  | nil => rfl
  | cons child children ih =>
    rw [serializeChildren, map_cons, map_cons, positionNames, ih, name_serializeSequentialStep]

theorem flatNames_serializeEntries (objects : StepObjects) (flatIndex : ℕ) (steps : List StepInput) :
    ((serializeEntries objects flatIndex steps).flatMap (·.steps)).map (·.name) =
      positionNames objects flatIndex (flatInputs steps) := by
  induction steps generalizing flatIndex with
  | nil => rfl
  | cons entry steps ih =>
    cases entry with
    | flat input =>
      rw [serializeEntries, flatMap_cons, map_append, ih]
      exact congrArg (· :: _) (name_serializeSequentialStep objects flatIndex input)
    | parallel group =>
      rw [serializeEntries, flatMap_cons, map_append, ih, flatInputs_parallel, positionNames_append,
        length_map, ← names_serializeChildren]
      rfl

/-! ### The compiler -/

theorem transformSequentialStep_ok {lockStep : LockStep} {counter' : ℕ}
    (h : transformSequentialStep host objects counter input = .ok (lockStep, counter')) :
    lockStep.name = input.name objects (counter + 1) ∧
    counter' = counterAfter objects counter [input] := by
  cases input with
  | bare =>
    cases h
    exact ⟨rfl, rfl⟩
  | object ref =>
    obtain ⟨-, -, h⟩ := bind_eq_ok h
    obtain ⟨approval, -, h⟩ := bind_eq_ok h
    cases h
    refine ⟨rfl, ?_⟩
    split
    next hname =>
      have hanonymous : (object ref).anonymous objects := decide_eq_true hname
      exact (counterAfter_anonymous hanonymous).symm
    next hname =>
      have hnamed : (object ref).anonymous objects = false := decide_eq_false hname
      exact (counterAfter_named hnamed).symm

theorem transformChildren_ok {children : List GroupChild} {seen : List JsString}
    {lockChildren : List LockStep}
    {counter' : ℕ} (h : transformChildren host objects counter seen children = .ok
      (lockChildren, counter')) :
    lockChildren.map (·.name) = countedNames objects counter (children.map (·.input)) ∧
      counter' = counterAfter objects counter (children.map (·.input)) := by
  induction children generalizing counter seen lockChildren with
  | nil =>
    cases h
    exact ⟨rfl, rfl⟩
  | cons child children ih =>
    rw [transformChildren] at h
    split at h
    · cases h
    · obtain ⟨⟨lockChild, counter₁⟩, hchild, h⟩ := bind_eq_ok h
      obtain ⟨hname, rfl⟩ := transformSequentialStep_ok hchild
      dsimp only at h
      split at h
      · cases h
      · obtain ⟨⟨rest, counter₂⟩, hrest, h⟩ := bind_eq_ok h
        cases h
        obtain ⟨hnames, rfl⟩ := ih hrest
        exact ⟨by rw [map_cons, map_cons, hname, hnames, countedNames], (counterAfter_cons _ _).symm⟩

theorem transformEntries_ok {groupOrdinal : ℕ}
    (h : transformEntries host objects counter groupOrdinal steps = .ok entries) :
    (entries.flatMap (·.steps)).map (·.name) = countedNames objects counter (flatInputs steps) := by
  induction steps generalizing counter groupOrdinal entries with
  | nil =>
    cases h
    rfl
  | cons entry steps ih =>
    cases entry with
    | flat input =>
      obtain ⟨⟨lockStep, counter₁⟩, hstep, h⟩ := bind_eq_ok h
      obtain ⟨hname, rfl⟩ := transformSequentialStep_ok hstep
      obtain ⟨rest, hrest, h⟩ := bind_eq_ok h
      cases h
      rw [flatMap_cons, map_append, ih hrest, flatInputs_flat, countedNames, ← hname]
      rfl
    | parallel group =>
      obtain ⟨⟨lockGroup, counter₁⟩, hgroup, h⟩ := bind_eq_ok h
      obtain ⟨rest, hrest, h⟩ := bind_eq_ok h
      cases h
      rw [transformParallelGroup] at hgroup
      split at hgroup
      · cases hgroup
      · obtain ⟨⟨children, counter₂⟩, hchildren, hgroup⟩ := bind_eq_ok hgroup
        cases hgroup
        obtain ⟨hnames, rfl⟩ := transformChildren_ok hchildren
        rw [flatMap_cons, map_append, ih hrest, flatInputs_parallel, countedNames_append, ← hnames]
        rfl

/-! ### The agent -/

/-- The names are those that hold in a state, where there is one. -/
def CoerceState.Names (s : CoerceState) (names : ℕ → JsString) : Prop :=
  ∀ ref, s.names ref ≠ [] → names ref = s.names ref

/-- Objects have their names, or got one. -/
structure CoerceState.Sound (objects : StepObjects) (s : CoerceState) : Prop where
  kept : ∀ ref ∉ s.autoNamed, s.names ref = (objects ref).name
  given : ∀ ref ∈ s.autoNamed, (objects ref).name = [] ∧ s.names ref ≠ []

theorem coerceStep_sound (h : s.Sound objects) (input : FlatStepInput) :
    (coerceStep s input).2.Sound objects ∧
      (coerceStep s input).2.counter = counterAfter objects s.counter [input] ∧
      ∀ names, (coerceStep s input).2.Names names → s.Names names ∧
        (coerceStep s input).1.name names = input.name objects (s.counter + 1) := by
  cases input with
  | bare => exact ⟨⟨h.kept, h.given⟩, rfl, fun names hnames => ⟨hnames, rfl⟩⟩
  | object ref =>
    rw [coerceStep]
    split
    next hempty =>
      have hnew : ref ∉ s.autoNamed := fun hauto => (h.given ref hauto).2 hempty
      have hname : (objects ref).name = [] := (h.kept ref hnew).symm.trans hempty
      have hanonymous : (object ref).anonymous objects := decide_eq_true hname
      have hself : update s.names ref (stepName (s.counter + 1)) ref = stepName (s.counter + 1) :=
        update_self _ _ _
      have hother {ref' : ℕ} (hne : ref' ≠ ref) :
          update s.names ref (stepName (s.counter + 1)) ref' = s.names ref' := update_of_ne hne _ _
      refine ⟨⟨fun ref' hkept => ?_, fun ref' hauto => ?_⟩, (counterAfter_anonymous hanonymous).symm,
        fun names hnames => ⟨fun ref' hne => ?_, ?_⟩⟩
      · have hne : ref' ≠ ref := fun hsame => hkept (hsame ▸ mem_cons_self)
        exact (hother hne).trans (h.kept ref' fun hauto => hkept (mem_cons_of_mem _ hauto))
      · by_cases hsame : ref' = ref
        · subst hsame
          exact ⟨hname, hself.trans_ne (stepName_ne_nil _)⟩
        · have hgiven := h.given ref' ((mem_cons.1 hauto).resolve_left hsame)
          exact ⟨hgiven.1, (hother hsame).trans_ne hgiven.2⟩
      · have hold := hother fun hsame : ref' = ref => hne (hsame ▸ hempty)
        exact (hnames ref' (hold.trans_ne hne)).trans hold
      · exact (hnames ref (hself.trans_ne (stepName_ne_nil _))).trans (hself.trans (if_pos hname).symm)
    next hnamed =>
      split
      next hauto =>
        have hname := (h.given ref hauto).1
        have hanonymous : (object ref).anonymous objects := decide_eq_true hname
        exact ⟨⟨h.kept, h.given⟩, (counterAfter_anonymous hanonymous).symm,
          fun names hnames => ⟨hnames, (if_pos hname).symm⟩⟩
      next hauto =>
        have hname := h.kept ref hauto
        have hfalse : (object ref).anonymous objects = false := decide_eq_false (hname ▸ hnamed)
        refine ⟨h, (counterAfter_named hfalse).symm, fun names hnames => ⟨hnames, ?_⟩⟩
        exact (hnames ref hnamed).trans (hname.trans (if_neg (hname ▸ hnamed)).symm)

theorem coerceChildren_sound (h : s.Sound objects) (flatIndex : ℕ) (children : List GroupChild) :
    (coerceChildren s flatIndex children).2.Sound objects ∧
    (coerceChildren s flatIndex children).2.counter =
      counterAfter objects s.counter (children.map (·.input)) ∧
      ∀ names, (coerceChildren s flatIndex children).2.Names names → s.Names names ∧
        ((coerceChildren s flatIndex children).1.map fun indexed =>
          (indexed.stepIndex, indexed.step.name names)) =
          ((countedNames objects s.counter (children.map (·.input))).zipIdx flatIndex).map
          Prod.swap := by
  induction children generalizing s flatIndex with
  | nil => exact ⟨h, rfl, fun names hnames => ⟨hnames, rfl⟩⟩
  | cons child children ih =>
    obtain ⟨hstep, hcounter, hstepNames⟩ := coerceStep_sound h child.input
    obtain ⟨hrest, hcounter', hrestNames⟩ := ih hstep (flatIndex + 1)
    rw [hcounter] at hcounter' hrestNames
    refine ⟨hrest, hcounter'.trans (counterAfter_cons _ _).symm, fun names hnames => ?_⟩
    obtain ⟨hafter, hchildren⟩ := hrestNames names hnames
    obtain ⟨hbefore, hname⟩ := hstepNames names hafter
    refine ⟨hbefore, ?_⟩
    rw [coerceChildren, map_cons, hchildren, hname, map_cons, countedNames, zipIdx_cons, map_cons]
    rfl

theorem coerceEntries_sound (h : s.Sound objects) (flatIndex groupOrdinal : ℕ)
    (steps : List StepInput) : ∀ names, (coerceEntries s flatIndex groupOrdinal steps).2.Names names →
      s.Names names ∧ (((coerceEntries s flatIndex groupOrdinal steps).1.flatMap (·.steps)).map
        fun indexed => (indexed.stepIndex, indexed.step.name names)) =
          ((countedNames objects s.counter (flatInputs steps)).zipIdx flatIndex).map Prod.swap := by
  induction steps generalizing s flatIndex groupOrdinal with
  | nil => exact fun names hnames => ⟨hnames, rfl⟩
  | cons entry steps ih =>
    cases entry with
    | flat input =>
      intro names hnames
      obtain ⟨hstep, hcounter, hstepNames⟩ := coerceStep_sound h input
      obtain ⟨hafter, hrest⟩ := ih hstep (flatIndex + 1) groupOrdinal names hnames
      obtain ⟨hbefore, hname⟩ := hstepNames names hafter
      refine ⟨hbefore, ?_⟩
      rw [coerceEntries, flatMap_cons, map_append, hrest, hcounter, flatInputs_flat, countedNames,
        zipIdx_cons, map_cons, ← hname]
      rfl
    | parallel group =>
      intro names hnames
      obtain ⟨hchildren, hcounter, hchildrenNames⟩ := coerceChildren_sound h flatIndex group.steps
      obtain ⟨hafter, hrest⟩ := ih hchildren (flatIndex + group.steps.length) (groupOrdinal + 1)
        names hnames
      obtain ⟨hbefore, hgroup⟩ := hchildrenNames names hafter
      refine ⟨hbefore, ?_⟩
      rw [coerceEntries, flatMap_cons, map_append, hrest, hcounter, flatInputs_parallel,
        countedNames_append, zipIdx_append, map_append, ← hgroup, length_countedNames, length_map]
      rfl

/-- The agent gives the names that the counter gives. -/
theorem agentSequence_eq (objects : StepObjects) (steps : List StepInput) :
    agentSequence objects steps = (countedNames objects 0 (flatInputs steps)).zipIdx.map Prod.swap := by
  have hstart : CoerceState.Sound objects { names := fun ref => (objects ref).name } :=
    ⟨fun _ _ => rfl, nofun⟩
  exact (coerceEntries_sound hstart 0 0 steps _ fun ref _ => rfl).2

/-! ### Where names agree -/

theorem FlatStepInput.name_eq_iff {m n : ℕ} :
    input.name objects m = input.name objects n ↔ (input.anonymous objects → m = n) := by
  cases input with
  | bare => exact ⟨fun h _ => stepName_injective h, fun h => congrArg stepName (h rfl)⟩
  | object ref =>
    rw [name, name]
    split
    next hname => exact
      ⟨fun h _ => stepName_injective h, fun h => congrArg stepName (h (decide_eq_true hname))⟩
    next hname => exact ⟨fun _ hanonymous => absurd (of_decide_eq_true hanonymous) hname, fun _ => rfl⟩

/-- The counter and the position give the same names if every step without a name has one with a
name before it, of those in the list and those before the list together. -/
theorem countedNames_eq_positionNames_iff (counter named : ℕ) :
    countedNames objects counter inputs = positionNames objects (counter + named) inputs ↔
      ∀ (k : ℕ) (input : FlatStepInput), inputs[k]? = some input → input.anonymous objects →
        named + (inputs.take k).countP (fun before => !before.anonymous objects) = 1 := by
  induction inputs generalizing counter named with
  | nil =>
    refine ⟨fun _ k input hget => ?_, fun _ => rfl⟩
    cases hget
  | cons input inputs ih =>
    have htake (k : ℕ) :
      ((input :: inputs).take (k + 1)).countP (fun before => !before.anonymous objects) =
        (inputs.take k).countP (fun before => !before.anonymous objects) +
          (!input.anonymous objects).toNat := by
      rw [take_succ_cons, countP_cons]
      cases input.anonymous objects <;> rfl
    rw [countedNames, positionNames, List.cons.injEq, name_eq_iff]
    cases hanonymous : input.anonymous objects with
    | true =>
      rw [counterAfter_anonymous hanonymous, Nat.add_right_comm, ih]
      rw [hanonymous] at htake
      refine ⟨fun ⟨hhead, hrest⟩ k x hget hx => ?_, fun h => ⟨fun _ => ?_, fun k x hget hx => ?_⟩⟩
      · cases k with
        | zero =>
          have hone := hhead rfl
          rw [take_zero, countP_nil]
          omega
        | succ k =>
          rw [htake]
          exact hrest k x hget hx
      · have hone := h 0 input rfl hanonymous
        rw [take_zero, countP_nil] at hone
        omega
      · have hone := h (k + 1) x hget hx
        rwa [htake] at hone
    | false =>
      rw [counterAfter_named hanonymous, Nat.add_assoc, ih]
      rw [hanonymous] at htake
      refine ⟨fun ⟨_, hrest⟩ k x hget hx => ?_, fun h => ⟨fun hfalse => ?_, fun k x hget hx => ?_⟩⟩
      · cases k with
        | zero =>
          cases hget
          exact absurd (hanonymous.symm.trans hx) (by decide)
        | succ k =>
          rw [htake]
          exact (Nat.add_right_comm _ _ _).symm.trans (hrest k x hget hx)
      · cases hfalse
      · have hone := h (k + 1) x hget hx
        rw [htake] at hone
        exact (Nat.add_right_comm _ _ _).trans hone

/-! ### Groups -/

def groupsOf (steps : List StepInput) : List ParallelGroup :=
  steps.filterMap fun entry => match entry with
    | .flat _ => none
    | .parallel group => some group

/-- The default name of a group in the lock is not that of the agent. -/
theorem groupDefault_ne (text : JsString) (n : ℕ) :
    js "parallel-" ++ text ≠ js "g" ++ js (toString n) := by
  intro h
  have hparallel : js "parallel-" = 0x70 :: js "arallel-" := by decide
  have hg : js "g" = [0x67] := by decide
  rw [hparallel, hg] at h
  exact absurd (List.cons.inj h).1 (by decide)

theorem groups_serializeEntries (objects : StepObjects) (s : CoerceState) (flatIndex groupOrdinal : ℕ)
    (steps : List StepInput) :
    (coerceEntries s flatIndex groupOrdinal steps).1.filterMap (·.groupName?) =
        (serializeEntries objects flatIndex steps).filterMap (·.groupName?) ↔
      ∀ group ∈ groupsOf steps, group.name.isSome := by
  induction steps generalizing s flatIndex groupOrdinal with
  | nil => exact ⟨nofun, fun _ => rfl⟩
  | cons entry steps ih =>
    cases entry with
    | flat input => exact ih _ _ _
    | parallel group =>
      have hgroups : groupsOf (.parallel group :: steps) = group :: groupsOf steps := rfl
      rw [hgroups, forall_mem_cons, ← ih (coerceChildren s flatIndex group.steps).2
        (flatIndex + group.steps.length) (groupOrdinal + 1)]
      refine cons_eq_cons.trans (and_congr_left fun _ => ?_)
      cases group.name with
      | none => exact ⟨fun heq => absurd heq.symm (groupDefault_ne _ _), fun hsome => by cases hsome⟩
      | some name => exact ⟨fun _ => rfl, fun _ => rfl⟩

theorem groups_transformEntries (s : CoerceState) (flatIndex groupOrdinal : ℕ)
    (h : transformEntries host objects counter groupOrdinal steps = .ok entries)
    (hnamed : ∀ group ∈ groupsOf steps, group.name.isSome) :
    (coerceEntries s flatIndex groupOrdinal steps).1.filterMap (·.groupName?) = entries.filterMap
    (·.groupName?) := by
  induction steps generalizing s counter flatIndex groupOrdinal entries with
  | nil =>
    cases h
    rfl
  | cons entry steps ih =>
    cases entry with
    | flat input =>
      obtain ⟨⟨lockStep, counter₁⟩, -, h⟩ := bind_eq_ok h
      obtain ⟨rest, hrest, h⟩ := bind_eq_ok h
      cases h
      have hnames := ih (coerceStep s input).2 (flatIndex + 1) groupOrdinal hrest hnamed
      exact hnames
    | parallel group =>
      obtain ⟨hname, hnamed⟩ := forall_mem_cons.1 hnamed
      obtain ⟨⟨lockGroup, counter₁⟩, hgroup, h⟩ := bind_eq_ok h
      obtain ⟨rest, hrest, h⟩ := bind_eq_ok h
      cases h
      rw [transformParallelGroup] at hgroup
      split at hgroup
      · cases hgroup
      · obtain ⟨⟨children, counter₂⟩, -, hgroup⟩ := bind_eq_ok hgroup
        cases hgroup
        obtain ⟨name, hsome⟩ := Option.isSome_iff_exists.1 hname
        refine cons_eq_cons.2 ⟨?_, ih _ _ _ hrest hnamed⟩
        rw [hsome]
        rfl

/-! ### The result -/

/-- A list is told by its elements with their places. -/
theorem zipIdx_swap_inj {names names' : List JsString} :
    names.zipIdx.map Prod.swap = names'.zipIdx.map Prod.swap ↔ names = names' := by
  refine ⟨fun h => ?_, fun h => by rw [h]⟩
  have hnames (l : List JsString) : (l.zipIdx.map Prod.swap).map Prod.snd = l := by
    rw [List.map_map]
    exact zipIdx_map_fst 0 l
  rw [← hnames names, h, hnames]

/-- Whenever the compiler accepts the steps, the agent has its names. -/
theorem agentSequence_eq_transformSteps
    (h : transformSteps host objects steps = .ok entries) :
    agentSequence objects steps = lockSequence entries := by
  rw [agentSequence_eq, lockSequence, transformEntries_ok h]

theorem agentSequence_eq_serializeSteps_iff :
    agentSequence objects steps = lockSequence (serializeSteps objects steps) ↔
      ∀ (k : ℕ) (input : FlatStepInput), (flatInputs steps)[k]? = some input → input.anonymous objects →
        ((flatInputs steps).take k).countP (fun before => !before.anonymous objects) = 1 := by
  rw [agentSequence_eq, lockSequence, serializeSteps, flatNames_serializeEntries, zipIdx_swap_inj]
  have hiff := @countedNames_eq_positionNames_iff objects (flatInputs steps) 0 0
  simpa only [Nat.zero_add] using hiff

/-- The names of the agent are those of the lock if and only if the author names every group, and
every step without a name has exactly one with a name before it in the flat list. -/
theorem stepsAlike_iff (host : CompilerHost) (objects : StepObjects) (steps : List StepInput) :
    StepsAlike host objects steps ↔ (∀ group ∈ groupsOf steps, group.name.isSome) ∧
      ∀ (k : ℕ) (input : FlatStepInput), (flatInputs steps)[k]? = some input → input.anonymous objects →
        ((flatInputs steps).take k).countP (fun before => !before.anonymous objects) = 1 := by
  refine ⟨fun ⟨_, hserialized⟩ => ⟨?_, agentSequence_eq_serializeSteps_iff.1 hserialized.sequence⟩,
    fun ⟨hgroups, hnumbers⟩ =>
      ⟨fun entries hentries => ⟨agentSequence_eq_transformSteps hentries, ?_⟩, ?_, ?_⟩⟩
  · exact (groups_serializeEntries objects _ 0 0 steps).1 hserialized.groups
  · exact groups_transformEntries _ 0 0 hentries hgroups
  · exact agentSequence_eq_serializeSteps_iff.2 hnumbers
  · exact (groups_serializeEntries objects _ 0 0 steps).2 hgroups

/-- A group without a name, with a bare function: its default names are three, and the function has
two. -/
theorem exists_steps_not_alike : ∃ entries,
    transformSteps plainHost (fun _ => { name := [] }) [.parallel { steps := [{ input := .bare }] }] =
    .ok entries ∧
    entries.filterMap (·.groupName?) = [js "parallel-0"] ∧ lockSequence entries = [(0, js "step-1")] ∧
    (serializeSteps (fun _ => { name := [] }) [.parallel { steps := [{ input := .bare }] }]).filterMap
      (·.groupName?) = [js "parallel-step-0"] ∧
    lockSequence (serializeSteps (fun _ => { name := [] })
      [.parallel { steps := [{ input := .bare }] }]) = [(0, js "step-0")] ∧
    ¬ StepsAlike plainHost (fun _ => { name := [] }) [.parallel { steps := [{ input := .bare }] }] := by
  refine ⟨_, rfl, by decide, by decide, by decide, by decide, fun h => ?_⟩
  exact absurd h.2.sequence (by decide)

end Kici.Lock
