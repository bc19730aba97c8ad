import Kici.Foundation.Except
import Kici.Trigger.Deferred

/-!
# Workflows by the types of events

Most workflows have no trigger for the type of an event. So they are indexed, once for each list of
workflows, by the types of events that their triggers can match (`prepareEventBuckets`), and an
event is only matched against the workflows under its type (`matchWorkflowsForEvent`). A trigger
that is not under the type of an event fails at its first check, and throws nothing
(`exists_matchTrigger_of_foreign`): what is left out would not have matched, so that the matched
decisions are those on all workflows (`matchedDecisions_matchWorkflowsForEvent`).

The types are looked up in an object by the type of the trigger. An object also answers to the names
that it inherits; a trigger with such a type makes the index throw (`exists_inherited_throws`).
-/

namespace Kici

open List MatchRuntime Function

variable {triggers : List (Option LockTrigger)}

/-- The workflows under each type of event. -/
abbrev Buckets := JsString → List LockWorkflow

/-- The types of events that the triggers of a type can match. -/
def TRIGGER_TYPE_TO_EVENT_TYPES : List (JsString × List JsString) := [
  ("pr", ["pull_request"]),
  ("push", ["push"]),
  ("tag", ["tag"]),
  ("comment", ["comment"]),
  ("review", ["review"]),
  ("review_comment", ["review_comment"]),
  ("release", ["release"]),
  ("dispatch", ["dispatch"]),
  ("create", ["create"]),
  ("delete", ["delete"]),
  ("status", ["status"]),
  ("workflow_run", ["workflow_run"]),
  ("fork", ["fork"]),
  ("star", ["star"]),
  ("watch", ["watch"]),
  ("kici_event", ["kici_event"]),
  ("workflow_complete", ["workflow_complete"]),
  ("workflows_failed_batch", ["workflow_complete", "workflows_failed_batch"]),
  ("job_complete", ["job_complete"]),
  ("generic_webhook", ["generic_webhook"]),
  ("schedule", ["schedule"]),
  ("lifecycle", ["lifecycle"])]

/-- The names that every object has from its prototype. -/
def inheritedNames : List JsString := [
  "constructor", "__defineGetter__", "__defineSetter__", "hasOwnProperty", "__lookupGetter__",
    "__lookupSetter__",
  "isPrototypeOf", "propertyIsEnumerable", "toString", "valueOf", "__proto__", "toLocaleString"]

/-- `TRIGGER_TYPE_TO_EVENT_TYPES[type]`, to be gone through; what is inherited cannot be. -/
def lookupEventTypes (type : JsString) : Except MatchError (List JsString) :=
  match TRIGGER_TYPE_TO_EVENT_TYPES.lookup type with
  | some eventTypes => .ok eventTypes
  | none => if type ∈ inheritedNames then .error .typeError else .ok []

/-- The types of events under which a trigger puts its workflow. -/
def eventTypesOf : Option LockTrigger → Except MatchError (List JsString)
  | none => .ok []
  | some (.webhook trigger) => .ok trigger.events
  | some trigger => lookupEventTypes trigger.type

/-- Put a workflow under a type, unless it is among those that it is under already. -/
def addToBucket (w : LockWorkflow) (state : Buckets × List JsString) (eventType : JsString) :
    Buckets × List JsString :=
  if eventType ∈ state.2 then state
  else (update state.1 eventType (state.1 eventType ++ [w]), state.2 ++ [eventType])

def addTrigger (w : LockWorkflow) (state : Buckets × List JsString) (trigger : Option LockTrigger) :
    Except MatchError (Buckets × List JsString) := do
  return (← eventTypesOf trigger).foldl (addToBucket w) state

def addWorkflow (buckets : Buckets) (w : LockWorkflow) : Except MatchError Buckets :=
  (w.triggers.foldlM (addTrigger w) (buckets, [])).map Prod.fst

/-- The index of the workflows. -/
def buildBuckets (workflows : List LockWorkflow) : Except MatchError Buckets :=
  workflows.foldlM addWorkflow fun _ => []

/-- What is remembered of the arrays of workflows, each of which is told by its identity: their
indices. -/
structure BucketMemo {Ref : Type} (contents : Ref → List LockWorkflow) where
  entries : Ref → Option Buckets
  built : ∀ array buckets, entries array = some buckets → buildBuckets (contents array) = .ok buckets

namespace BucketMemo

variable {Ref : Type} [DecidableEq Ref] {contents : Ref → List LockWorkflow}

/-- Nothing is remembered at the start. -/
def empty : BucketMemo contents where
  entries _ := none
  built _ _ h := nomatch h

/-- `bucketMemo.set(workflows, buckets)`. -/
def set (memo : BucketMemo contents) (array : Ref) (buckets : Buckets)
    (h : buildBuckets (contents array) = .ok buckets) : BucketMemo contents where
  entries := update memo.entries array (some buckets)
  built other found hfound := by
    by_cases hother : other = array
    · subst hother
      rw [update_self] at hfound
      rw [h, Option.some.inj hfound]
    · rw [update_of_ne hother] at hfound
      exact memo.built other found hfound

/-- The index of an array, built unless it is remembered. -/
def prepareEventBuckets (memo : BucketMemo contents) (array : Ref) :
    Except MatchError Buckets × BucketMemo contents :=
  match memo.entries array with
  | some cached => (.ok cached, memo)
  | none =>
    match h : buildBuckets (contents array) with
    | .error e => (.error e, memo)
    | .ok buckets => (.ok buckets, memo.set array buckets h)

/-- The decisions on the workflows under the type of the event. -/
def matchWorkflowsForEvent (rt : MatchRuntime) (memo : BucketMemo contents) (array : Ref)
    (event : SimulatedEvent) : Except MatchError (List WorkflowDecision) × BucketMemo contents :=
  let (buckets, memo) := memo.prepareEventBuckets array
  (buckets.bind fun buckets => (buckets event.type).mapM (rt.matchWorkflowTriggers event), memo)

end BucketMemo

/-- The decisions on all workflows. -/
def MatchRuntime.matchAllWorkflows (rt : MatchRuntime) (workflows : List LockWorkflow)
    (event : SimulatedEvent) : Except MatchError (List WorkflowDecision) :=
  workflows.mapM (rt.matchWorkflowTriggers event)

/-- The decisions that matched. -/
def matchedDecisions (decisions : Except MatchError (List WorkflowDecision)) :
    Except MatchError (List WorkflowDecision) :=
  decisions.map fun decisions => decisions.filter WorkflowDecision.matched

variable {Ref : Type} [DecidableEq Ref] {contents : Ref → List LockWorkflow} {rt : MatchRuntime}
  {event : SimulatedEvent} {trigger : LockTrigger} {w : LockWorkflow} {workflows : List LockWorkflow}
  {buckets : Buckets} {eventTypes : List JsString}

/-! ## The index -/

/-- The types that a workflow is put under, where no trigger throws. -/
def subscriptions (w : LockWorkflow) : List JsString :=
  w.triggers.flatMap fun trigger => (eventTypesOf trigger).toOption.getD []

/-- No trigger of the workflow throws when it is indexed. -/
def Indexable (w : LockWorkflow) : Prop :=
  ∀ trigger ∈ w.triggers, ∃ eventTypes, eventTypesOf trigger = .ok eventTypes

/-- What the types of a trigger add: the workflow, under those of them that it is not under yet. -/
theorem foldl_addToBucket (w : LockWorkflow) (state : Buckets × List JsString)
    (eventTypes : List JsString) : (∀ t, (eventTypes.foldl (addToBucket w) state).1 t =
      state.1 t ++ if t ∈ eventTypes ∧ t ∉ state.2 then [w] else []) ∧
    ∀ t, t ∈ (eventTypes.foldl (addToBucket w) state).2 ↔ t ∈ state.2 ∨ t ∈ eventTypes := by
  induction eventTypes generalizing state with
  | nil => simp
  | cons first rest ih =>
    rw [foldl_cons]
    obtain ⟨hbuckets, hseen⟩ := ih (addToBucket w state first)
    by_cases hfirst : first ∈ state.2
    -- an earlier type of the workflow was the same
    · rw [addToBucket, if_pos hfirst] at hbuckets hseen ⊢
      refine ⟨fun t => ?_, fun t => ?_⟩
      · have hsame : t ∈ first :: rest ∧ t ∉ state.2 ↔ t ∈ rest ∧ t ∉ state.2 := by
          rw [mem_cons]
          exact ⟨fun ⟨hmem, hnot⟩ => ⟨hmem.resolve_left fun heq => hnot (heq ▸ hfirst), hnot⟩,
            fun ⟨hmem, hnot⟩ => ⟨.inr hmem, hnot⟩⟩
        rw [hbuckets]
        simp only [hsame]
      · rw [hseen, mem_cons]
        exact ⟨fun h => h.imp_right .inr, fun h => h.elim .inl fun h =>
          h.elim (fun heq => .inl (heq ▸ hfirst)) .inr⟩
    · rw [addToBucket, if_neg hfirst] at hbuckets hseen ⊢
      refine ⟨fun t => ?_, fun t => ?_⟩
      · rw [hbuckets]
        by_cases ht : t = first
        · subst ht
          simp [hfirst]
        · simp [ht]
      · rw [hseen]
        simp [or_assoc]

/-- The triggers of a workflow add it under their types, one after the other. -/
theorem foldlM_addTrigger
    (hok : ∀ trigger ∈ triggers, ∃ eventTypes, eventTypesOf trigger = .ok eventTypes)
    (state : Buckets × List JsString) :
    triggers.foldlM (addTrigger w) state =
      .ok ((triggers.flatMap fun trigger => (eventTypesOf trigger).toOption.getD []).foldl
        (addToBucket w) state) := by
  induction triggers generalizing state with
  | nil => rfl
  | cons trigger triggers ih =>
    obtain ⟨eventTypes, htypes⟩ := hok trigger mem_cons_self
    rw [foldlM_cons, addTrigger, htypes, flatMap_cons, foldl_append, htypes]
    exact ih (fun t ht => hok t (mem_cons_of_mem _ ht)) _

theorem addWorkflow_ok (h : Indexable w) : ∃ result, addWorkflow buckets w = .ok result ∧
    ∀ t, result t = buckets t ++ if t ∈ subscriptions w then [w] else [] := by
  refine ⟨_, by rw [addWorkflow, foldlM_addTrigger h]; rfl, fun t => ?_⟩
  simpa [subscriptions] using (foldl_addToBucket w (buckets, []) (subscriptions w)).1 t

/-- Under each type are the workflows that have it, in their order. -/
theorem buildBuckets_ok (h : ∀ w ∈ workflows, Indexable w) :
    ∃ buckets, buildBuckets workflows = .ok buckets ∧ ∀ t, buckets t = workflows.filter fun w =>
    t ∈ subscriptions w := by
  have hfold : ∀ (workflows : List LockWorkflow) (buckets : Buckets), (∀ w ∈ workflows, Indexable w) →
      ∃ result, workflows.foldlM addWorkflow buckets = .ok result ∧
        ∀ t, result t = buckets t ++ workflows.filter fun w => t ∈ subscriptions w := by
    intro workflows
    induction workflows with
    | nil => exact fun buckets _ => ⟨buckets, rfl, fun t => (append_nil _).symm⟩
    | cons w workflows ih =>
      intro buckets h
      obtain ⟨next, hnext, hw⟩ := addWorkflow_ok (h w mem_cons_self)
      obtain ⟨result, hresult, hrest⟩ := ih next fun w hw => h w (mem_cons_of_mem _ hw)
      refine ⟨result, by rw [foldlM_cons, hnext]; exact hresult, fun t => ?_⟩
      rw [hrest, hw, append_assoc]
      by_cases ht : t ∈ subscriptions w
      · simp [ht]
      · simp [ht]
  obtain ⟨buckets, hbuckets, hall⟩ := hfold workflows (fun _ => []) h
  exact ⟨buckets, hbuckets, fun t => by rw [hall, nil_append]⟩

/-! ## Triggers that are left out -/

/-- A check that fails is the outcome of all that begin with it. -/
theorem all_of_failed {x : Checked TraceEntry (List JsString)} {c : TriggerCheck}
    (cs : List TriggerCheck)
    (h : c = .ok x) (hfailed : x.passed = false) : Check.all (c :: cs) = .ok x := by
  rw [Check.all, h, Check.andThen]
  simp [Except.bind, hfailed]

/-- A trigger does not match, and throws nothing. -/
def Fails (check : TriggerCheck) : Prop := ∃ traces, check = .ok ⟨false, traces, none⟩

theorem fails_all {c : TriggerCheck} (cs : List TriggerCheck) (h : Fails c) :
    Fails (Check.all (c :: cs)) := by
  obtain ⟨traces, hc⟩ := h
  exact ⟨traces, all_of_failed cs hc rfl⟩

theorem fails_traced {check pattern text : JsString} {reason : Option JsString} :
    Fails (rt.traced check pattern (.str text) false reason) := ⟨_, rfl⟩

theorem fails_checkEventType {expected : JsString} (h : event.type ≠ expected) :
    Fails (rt.checkEventType event expected) := by
  rw [checkEventType, decide_eq_false h]
  exact fails_traced

/-- A trigger that does not put its workflow under the type of the event fails at its first check. -/
theorem fails_matchTrigger_of_foreign (h : ∀ eventTypes, eventTypesOf (some trigger) = .ok eventTypes →
      event.type ∉ eventTypes) : Fails (rt.matchTrigger event trigger) := by
  have hguard : ∀ expected, eventTypesOf (some trigger) = .ok [expected] →
    Fails (rt.checkEventType event expected) :=
    fun expected htypes => fails_checkEventType fun heq => h _ htypes (heq ▸ mem_cons_self)
  cases trigger with
  | webhook t =>
    -- the types of a webhook trigger are its own, and so is its first check
    have hevents : decide (event.type ∈ t.events) = false := decide_eq_false (h t.events rfl)
    rw [matchTrigger, matchWebhookTrigger, hevents]
    exact fails_all _ fails_traced
  | workflowsFailedBatch t =>
    -- the first check asks for two types
    have hbatch := h _ rfl
    rw [mem_cons, mem_singleton, not_or] at hbatch
    refine fails_all _ ?_
    rw [checkBatchEvent, if_neg hbatch.1, if_pos hbatch.2]
    exact fails_traced
  | other t => exact ⟨[], rfl⟩
  | pr | push | tag | comment | review | reviewComment | release | dispatch | create | delete | status
  | workflowRun |
      fork | star | watch | kiciEvent | workflowComplete | jobComplete | genericWebhook |
        schedule | lifecycle =>
    exact fails_all _ (hguard _ rfl)

/-- A workflow none of whose triggers matches is not matched. -/
theorem exists_unmatched (name : JsString) (i : ℕ) (traces : List TraceEntry)
    (h : ∀ trigger, some trigger ∈ triggers → Fails (rt.matchTrigger event trigger)) :
    ∃ decision, rt.scanTriggers event name i traces none [] triggers = .ok decision ∧
    decision.matched = false := by
  induction triggers generalizing i traces with
  | nil => exact ⟨_, rfl, rfl⟩
  | cons trigger triggers ih =>
    have hrest : ∀ t, some t ∈ triggers → Fails (rt.matchTrigger event t) := fun t ht =>
      h t (mem_cons_of_mem _ ht)
    cases trigger with
    | none => exact ih (i + 1) traces hrest
    | some trigger =>
      obtain ⟨own, hown⟩ := h trigger mem_cons_self
      obtain ⟨decision, hdecision, hunmatched⟩ := ih (i + 1) (traces ++ own) hrest
      exact ⟨decision, by rw [scanTriggers, hown]; exact hdecision, hunmatched⟩

/-- A workflow that is not under the type of an event does not match it. -/
theorem matchWorkflowTriggers_of_foreign (rt : MatchRuntime) (h : event.type ∉ subscriptions w) :
    ∃ decision, rt.matchWorkflowTriggers event w = .ok decision ∧ decision.matched = false := by
  rw [matchWorkflowTriggers]
  by_cases hnil : w.triggers = []
  · rw [if_pos hnil]
    exact ⟨_, rfl, rfl⟩
  · rw [if_neg hnil]
    refine exists_unmatched w.name 0 [] fun trigger hmem =>
      fails_matchTrigger_of_foreign fun eventTypes htypes hin => ?_
    refine h (mem_flatMap.2 ⟨some trigger, hmem, ?_⟩)
    rw [htypes]
    exact hin

/-! ## Matching -/

/-- What does not match may be left out before. -/
theorem matchedDecisions_filter {p : LockWorkflow → Bool} (h : ∀ w ∈ workflows, p w = false →
      ∃ decision, rt.matchWorkflowTriggers event w = .ok decision ∧ decision.matched = false) :
    matchedDecisions ((workflows.filter p).mapM (rt.matchWorkflowTriggers event)) =
      matchedDecisions (rt.matchAllWorkflows workflows event) := by
  induction workflows with
  | nil => rfl
  | cons w workflows ih =>
    have hrest := ih fun v hv => h v (mem_cons_of_mem _ hv)
    rw [matchAllWorkflows] at hrest ⊢
    rw [mapM_cons]
    cases hp : p w with
    | true =>
      rw [filter_cons_of_pos hp, mapM_cons]
      rcases rt.matchWorkflowTriggers event w with e | decision
      · rfl
      · revert hrest
        rcases (workflows.filter p).mapM (rt.matchWorkflowTriggers event) with e | kept <;>
          rcases workflows.mapM (rt.matchWorkflowTriggers event) with e' | all <;>
          simp +contextual [matchedDecisions, Except.map, bind, Except.bind, pure,
            Except.pure, filter_cons]
    | false =>
      obtain ⟨decision, hdecision, hunmatched⟩ := h w mem_cons_self hp
      rw [filter_cons_of_neg (by simp [hp]), hrest, hdecision]
      rcases workflows.mapM (rt.matchWorkflowTriggers event) with e | all
      · rfl
      · simp [matchedDecisions, Except.map, bind, Except.bind, pure, Except.pure, hunmatched]

/-- What is built or remembered for an array whose workflows can be indexed. -/
theorem prepareEventBuckets_ok (memo : BucketMemo contents) (array : Ref)
    (h : ∀ w ∈ contents array, Indexable w) :
    ∃ buckets, (memo.prepareEventBuckets array).1 = .ok buckets ∧
      ∀ t, buckets t = (contents array).filter fun w => t ∈ subscriptions w := by
  obtain ⟨buckets, hbuild, hall⟩ := buildBuckets_ok h
  refine ⟨buckets, ?_, hall⟩
  rw [BucketMemo.prepareEventBuckets]
  cases hentry : memo.entries array with
  | some cached =>
    -- what is remembered was built from the same workflows
    have hcached := memo.built array cached hentry
    rw [hbuild] at hcached
    exact hcached.symm
  | none =>
    simp only
    split
    · rename_i e herror
      rw [hbuild] at herror
      cases herror
    · rename_i built hbuilt
      rw [hbuild] at hbuilt
      exact hbuilt.symm

/-- A trigger whose type is not an inherited name can be indexed. -/
theorem eventTypesOf_ok (h : trigger.type ∉ inheritedNames) :
    ∃ eventTypes, eventTypesOf (some trigger) = .ok eventTypes := by
  have hlookup : ∃ eventTypes, lookupEventTypes trigger.type = .ok eventTypes := by
    rw [lookupEventTypes]
    split
    · exact ⟨_, rfl⟩
    · exact ⟨[], if_neg h⟩
  cases trigger with
  | webhook t => exact ⟨t.events, rfl⟩
  | _ => exact hlookup

theorem indexable_of_types (h : ∀ trigger, some trigger ∈ w.triggers → trigger.type ∉ inheritedNames) :
    Indexable w := by
  intro trigger hmem
  cases trigger with
  | none => exact ⟨[], rfl⟩
  | some trigger => exact eventTypesOf_ok (h trigger hmem)

/-- The decisions that match an event among the workflows under its type are those among all
workflows, and one throws what the other does; unless a trigger has the name of what objects inherit
for its type. -/
theorem matchedDecisions_matchWorkflowsForEvent (rt : MatchRuntime) (memo : BucketMemo contents)
    (array : Ref) (event : SimulatedEvent)
    (h : ∀ w ∈ contents array, ∀ trigger, some trigger ∈ w.triggers → trigger.type ∉ inheritedNames) :
    matchedDecisions (memo.matchWorkflowsForEvent rt array event).1 =
      matchedDecisions (rt.matchAllWorkflows (contents array) event) := by
  have hok : ∀ w ∈ contents array, Indexable w := fun w hw => indexable_of_types (h w hw)
  obtain ⟨buckets, hprepare, hbuckets⟩ := prepareEventBuckets_ok memo array hok
  have hmatch : (memo.matchWorkflowsForEvent rt array event).1 =
      (buckets event.type).mapM (rt.matchWorkflowTriggers event) := by
    rw [BucketMemo.matchWorkflowsForEvent]
    simp only [hprepare]
    rfl
  rw [hmatch, hbuckets]
  refine matchedDecisions_filter fun w hw hforeign => ?_
  exact matchWorkflowTriggers_of_foreign rt (of_decide_eq_false hforeign)

/-- The workflows of a lock file: one on pushes, with a trigger that is `null`, and one on tags. -/
def pushAndTag : Unit → List LockWorkflow := fun _ =>
  [⟨"ci", [none, some (.push {})]⟩, ⟨"release", [some (.tag ⟨[], none, none⟩)]⟩]

/-- A push is matched against the one on pushes only. -/
theorem matchedDecisions_matchWorkflowsForEvent_push :
    matchedDecisions ((BucketMemo.empty : BucketMemo pushAndTag).matchWorkflowsForEvent literalRuntime ()
        undiffedPush).1 =
      matchedDecisions (literalRuntime.matchAllWorkflows (pushAndTag ()) undiffedPush) :=
  matchedDecisions_matchWorkflowsForEvent literalRuntime (BucketMemo.empty : BucketMemo pushAndTag) ()
    undiffedPush (by
    simp only [pushAndTag, forall_mem_cons]
    refine ⟨fun trigger hmem => ?_, fun trigger hmem => ?_, by simp⟩
    · obtain rfl : trigger = .push {} := by simpa using hmem
      decide
    · obtain rfl : trigger = .tag ⟨[], none, none⟩ := by simpa using hmem
      decide)

/-- A trigger with the name of an inherited property for its type throws when it is indexed, and not
when it is matched. -/
theorem exists_inherited_throws : ∃ rt event, ∃ contents : Unit → List LockWorkflow,
    matchedDecisions ((BucketMemo.empty : BucketMemo contents).matchWorkflowsForEvent rt () event).1 =
      .error .typeError ∧
    matchedDecisions (rt.matchAllWorkflows (contents ()) event) = .ok [] :=
  ⟨literalRuntime, undiffedPush, fun _ => [⟨"ci", [some (.other "constructor")]⟩], rfl, rfl⟩

end Kici
