import Kici.Events.Subscriptions
import Kici.Trigger.Deferred

/-!
# Each subscriber once

The calls of `processSubscriptions` follow from the event and the registrations alone
(`deliveryCalls`), and an attempt makes them in turn up to the first that throws
(`oblivious_processSubscriptions`).
-/

namespace Kici.Events

open List

variable {regs : List RegisteredWorkflow}

namespace Router

variable (router : Router) (event : StoredEvent)

/-! ## The calls of a registration -/

/-- The decision for the workflow of a registration, if it matches. -/
def matchedDecision (reg : RegisteredWorkflow) : Option WorkflowDecision :=
  match router.rt.matchWorkflowTriggers event.simulated reg.lockEntry with
  | .ok decision => if decision.matched then some decision else none
  | .error _ => none

/-- A run that failures have started does not count as a failure. -/
def selfExcluded : Bool := present event.sourceRunId && router.failureLifecycle event

/-- The calls for a decision that matches. -/
def decisionCalls (reg : RegisteredWorkflow) (decision : WorkflowDecision) : List DeliveryCall :=
  if event.isFailedCompletion && reg.batches decision then
    (if present event.sourceRunId then [.isFailureLifecycleRun reg.id] else []) ++
      if router.selfExcluded event then [] else [.openOrGetBatchWindow reg.id, .appendBatchItem reg.id]
  else [.onEventMatched reg.id]

def registrationCalls (reg : RegisteredWorkflow) : List DeliveryCall :=
  (if event.asksTrust reg then [.isTrusted reg.id] else []) ++
    if event.asksTrust reg && !router.trusted event reg then []
    else (router.matchedDecision event reg).elim [] (router.decisionCalls event reg)

/-- All calls for an event, in the order of the registrations. -/
def deliveryCalls : List DeliveryCall :=
  match router.candidates event with
  | .ok regs => regs.flatMap (router.registrationCalls event)
  | .error _ => []

variable {router event} {reg : RegisteredWorkflow} {tally : Tally}

/-! ## Attempts -/

theorem oblivious_isFailureLifecycleRun (reg : RegisteredWorkflow) :
    Oblivious (router.isFailureLifecycleRun event reg) := by
  rw [isFailureLifecycleRun]
  split
  · exact oblivious_bind (oblivious_call _) fun _ => oblivious_pure _
  · exact oblivious_pure _

theorem oblivious_bufferBatchFailure (reg : RegisteredWorkflow) : Oblivious (bufferBatchFailure reg) :=
  oblivious_bind (oblivious_call _) fun _ => oblivious_call _

theorem oblivious_bufferLoop (reg : RegisteredWorkflow) (decisions : List WorkflowDecision)
    (excluded : Option Bool) : Oblivious (router.bufferLoop event reg decisions excluded) := by
  induction decisions generalizing excluded with
  | nil =>
    rw [bufferLoop]
    exact oblivious_pure _
  | cons decision decisions ih =>
    rw [bufferLoop]
    split
    · refine oblivious_bind ?_ fun excluded => ?_
      · cases excluded with
        | none => exact oblivious_isFailureLifecycleRun reg
        | some excluded => exact oblivious_pure _
      · split
        · exact ih _
        · exact oblivious_bind (oblivious_bufferBatchFailure reg) fun _ =>
            oblivious_bind (ih _) fun _ => oblivious_pure _
    · exact oblivious_bind (ih _) fun _ => oblivious_pure _

theorem oblivious_bufferBatchDecisions (reg : RegisteredWorkflow) (decisions : List WorkflowDecision) :
    Oblivious (router.bufferBatchDecisions event reg decisions) := by
  rw [bufferBatchDecisions]
  split
  · exact oblivious_bufferLoop reg decisions none
  · exact oblivious_pure _

theorem oblivious_deliver (reg : RegisteredWorkflow) (tally : Tally)
    (decisions : List WorkflowDecision) : Oblivious (router.deliver event reg tally decisions) := by
  rw [deliver]
  split
  · exact oblivious_pure _
  · refine oblivious_bind (oblivious_bufferBatchDecisions reg decisions) fun buffered => ?_
    split
    · exact oblivious_pure _
    · exact oblivious_bind (oblivious_call _) fun _ => oblivious_pure _

theorem oblivious_checkTrust (reg : RegisteredWorkflow) : Oblivious (router.checkTrust event reg) := by
  rw [checkTrust]
  split
  · exact oblivious_bind (oblivious_call _) fun _ => oblivious_pure _
  · exact oblivious_pure _

theorem oblivious_processRegistration (reg : RegisteredWorkflow) (tally : Tally) :
    Oblivious (router.processRegistration event reg tally) := by
  refine oblivious_bind (oblivious_checkTrust reg) fun trusted => ?_
  split
  · exact oblivious_bind (oblivious_ofExcept _) fun decisions => oblivious_deliver reg tally _
  · exact oblivious_pure _

theorem oblivious_processRegistrations (regs : List RegisteredWorkflow) (tally : Tally) :
    Oblivious (router.processRegistrations event regs tally) := by
  induction regs generalizing tally with
  | nil =>
    rw [processRegistrations]
    exact oblivious_pure _
  | cons reg regs ih =>
    rw [processRegistrations]
    exact oblivious_bind (oblivious_processRegistration reg tally) fun tally => ih tally

/-- An attempt makes the calls in turn, up to the first that throws. -/
theorem oblivious_processSubscriptions (router : Router) (event : StoredEvent) :
    Oblivious (router.processSubscriptions event) := by
  rw [processSubscriptions]
  split
  · exact oblivious_pure _
  · exact oblivious_bind (oblivious_processRegistrations _ _) fun _ => oblivious_pure _

/-! ## An attempt without faults -/

theorem undisturbed_isFailureLifecycleRun (router : Router) (event : StoredEvent)
    (reg : RegisteredWorkflow) : Undisturbed (router.isFailureLifecycleRun event reg)
      (if present event.sourceRunId then [.isFailureLifecycleRun reg.id] else [])
      (router.selfExcluded event) := by
  rw [isFailureLifecycleRun, selfExcluded]
  cases present event.sourceRunId with
  | true => exact undisturbed_bind (undisturbed_call _) (undisturbed_pure _)
  | false => exact undisturbed_pure _

theorem undisturbed_checkTrust (router : Router) (event : StoredEvent) (reg : RegisteredWorkflow) :
    Undisturbed (router.checkTrust event reg) (if event.asksTrust reg then [.isTrusted reg.id] else [])
      (!(event.asksTrust reg && !router.trusted event reg)) := by
  rw [checkTrust]
  cases event.asksTrust reg with
  | true =>
    rw [Bool.true_and, Bool.not_not]
    exact undisturbed_bind (undisturbed_call _) (undisturbed_pure _)
  | false => exact undisturbed_pure _

/-- A failure is buffered, unless the run was started by failures. -/
theorem undisturbed_bufferLoop (router : Router) (event : StoredEvent) {decision : WorkflowDecision}
    (hbatches : reg.batches decision) :
    Undisturbed (router.bufferLoop event reg [decision] none)
      ((if present event.sourceRunId then [.isFailureLifecycleRun reg.id] else []) ++
        if router.selfExcluded event then []
        else [.openOrGetBatchWindow reg.id, .appendBatchItem reg.id])
      ([], if router.selfExcluded event then 0 else 1) := by
  rw [bufferLoop, if_pos hbatches]
  refine undisturbed_bind (undisturbed_isFailureLifecycleRun router event reg) ?_
  cases router.selfExcluded event with
  | true => exact undisturbed_pure _
  | false =>
    have hrest : Undisturbed (router.bufferLoop event reg [] (some false)) [] ([], 0) :=
      undisturbed_pure _
    have hbuffer : Undisturbed (bufferBatchFailure reg)
      [.openOrGetBatchWindow reg.id, .appendBatchItem reg.id] () :=
      undisturbed_bind (undisturbed_call _) (undisturbed_call _)
    have hcounted : Undisturbed
        (router.bufferLoop event reg [] (some false) >>= fun rest => pure (rest.1, rest.2 + 1))
          [] ([], 1) :=
      undisturbed_bind hrest (undisturbed_pure _)
    exact undisturbed_bind (f := fun _ => router.bufferLoop event reg [] (some false) >>= fun rest =>
      pure (rest.1, rest.2 + 1)) hbuffer hcounted

/-- A decision that matches is buffered or dispatched. -/
theorem exists_undisturbed_deliver (router : Router) (event : StoredEvent) (reg : RegisteredWorkflow)
    (tally : Tally) (decision : WorkflowDecision) :
    ∃ tally', Undisturbed (router.deliver event reg tally [decision])
    (router.decisionCalls event reg decision)
      tally' := by
  have hdispatch : Undisturbed (router.bufferBatchDecisions event reg [decision]) [] ([decision], 0) →
      ∃ tally', Undisturbed (router.deliver event reg tally [decision]) [.onEventMatched reg.id]
        tally' := by
    intro hnone
    exact ⟨_, undisturbed_bind hnone (undisturbed_bind (undisturbed_call _) (undisturbed_pure _))⟩
  rw [decisionCalls]
  cases hfailed : event.isFailedCompletion with
  | false =>
    refine hdispatch ?_
    rw [bufferBatchDecisions, hfailed]
    exact undisturbed_pure _
  | true =>
    rw [Bool.true_and]
    cases hbatches : reg.batches decision with
    | false =>
      refine hdispatch ?_
      rw [bufferBatchDecisions, hfailed, if_pos rfl, bufferLoop, hbatches]
      exact undisturbed_bind (undisturbed_pure _) (undisturbed_pure _)
    | true =>
      have hbuffer := undisturbed_bufferLoop router event hbatches
      have hloop : router.bufferBatchDecisions event reg [decision] =
          router.bufferLoop event reg [decision] none := by
        rw [bufferBatchDecisions, hfailed, if_pos rfl]
      rw [← hloop] at hbuffer
      refine ⟨{ tally with buffered := tally.buffered || 0 < if router.selfExcluded event then 0
        else 1 }, ?_⟩
      rw [← append_nil (if true then _ else _)]
      exact undisturbed_bind hbuffer (undisturbed_pure _)

/-- The calls of a registration that does not fail. -/
theorem done_processRegistration {tally' : Tally}
    (h : (router.processRegistration event reg tally noFaults).result = .ok tally') :
    (router.processRegistration event reg tally noFaults).done = router.registrationCalls event reg := by
  have htrust := undisturbed_checkTrust router event reg
  rw [processRegistration] at h ⊢
  obtain ⟨trusted, hok, hrest, hdone⟩ := bind_result_ok h
  rw [hdone, registrationCalls]
  rw [Undisturbed] at htrust
  rw [htrust] at hok ⊢
  cases hok
  refine congrArg (_ ++ ·) ?_
  cases hblocked : event.asksTrust reg && !router.trusted event reg with
  | true => rfl
  | false =>
    rw [hblocked] at hrest
    obtain ⟨decisions, hdecisions, hdeliver, hdone⟩ := bind_result_ok hrest
    refine hdone.trans ?_
    rw [if_neg Bool.false_ne_true, matchedDecision]
    -- The lock file of a registration has one workflow.
    cases hmatch : router.rt.matchWorkflowTriggers event.simulated reg.lockEntry with
    | error e =>
      have hthrown : router.matchAllWorkflows event [reg.lockEntry] = .error (.matching e) := by
        rw [matchAllWorkflows, mapM_cons, hmatch]
        rfl
      rw [Computation.ofExcept, hthrown] at hdecisions
      cases hdecisions
    | ok decision =>
      have hone : router.matchAllWorkflows event [reg.lockEntry] = .ok [decision] := by
        rw [matchAllWorkflows, mapM_cons, hmatch]
        rfl
      rw [Computation.ofExcept, hone] at hdecisions
      cases hdecisions
      cases hmatched : decision.matched with
      | false =>
        rw [filter_cons_of_neg (Bool.eq_false_iff.1 hmatched)]
        dsimp only
        rw [hmatched]
        rfl
      | true =>
        rw [filter_cons_of_pos hmatched, filter_nil]
        obtain ⟨tally'', hplain⟩ := exists_undisturbed_deliver router event reg tally decision
        rw [Undisturbed] at hplain
        rw [hplain]
        dsimp only
        rw [hmatched]
        rfl

theorem done_processRegistrations {tally' : Tally}
    (h : (router.processRegistrations event regs tally noFaults).result = .ok tally') :
    (router.processRegistrations event regs tally noFaults).done = regs.flatMap
    (router.registrationCalls event) := by
  induction regs generalizing tally with
  | nil => rfl
  | cons reg regs ih =>
    rw [processRegistrations] at h ⊢
    obtain ⟨tally'', hfirst, hrest, hdone⟩ := bind_result_ok h
    rw [hdone, done_processRegistration hfirst, ih hrest, flatMap_cons]

/-- The calls of an attempt in which nothing throws. -/
theorem done_processSubscriptions {result : EventMatchResult}
    (h : (router.processSubscriptions event noFaults).result = .ok result) :
    (router.processSubscriptions event noFaults).done = router.deliveryCalls event := by
  rw [processSubscriptions] at h ⊢
  rw [deliveryCalls]
  cases hregs : router.candidates event with
  | error outcome => rfl
  | ok regs =>
    rw [hregs] at h
    obtain ⟨tally, hall, -, hdone⟩ := bind_result_ok h
    refine hdone.trans ((congrArg (· ++ _) (done_processRegistrations hall)).trans (append_nil _))

/-! ## No call is planned twice -/

/-- The registration of a call. -/
def registrationId : DeliveryCall → JsString
  | .isTrusted id | .isFailureLifecycleRun id | .openOrGetBatchWindow id => id
  | .appendBatchItem id | .onEventMatched id => id

theorem registrationCalls_spec (router : Router) (event : StoredEvent) (reg : RegisteredWorkflow) :
    (router.registrationCalls event reg).Nodup ∧
      ∀ c ∈ router.registrationCalls event reg, registrationId c = reg.id := by
  have hdecision : ∀ decision, (router.decisionCalls event reg decision).Nodup ∧
      ∀ c ∈ router.decisionCalls event reg decision, registrationId c = reg.id ∧
        c ≠ .isTrusted reg.id := by
    intro decision
    rw [decisionCalls]
    split
    · cases present event.sourceRunId <;> cases router.selfExcluded event <;> simp [registrationId]
    · simp [registrationId]
  have hmatched : ((router.matchedDecision event reg).elim [] (router.decisionCalls event reg)).Nodup ∧
      ∀ c ∈ (router.matchedDecision event reg).elim [] (router.decisionCalls event reg),
        registrationId c = reg.id ∧ c ≠ .isTrusted reg.id := by
    cases router.matchedDecision event reg with
    | none => exact ⟨nodup_nil, nofun⟩
    | some decision => exact hdecision decision
  rw [registrationCalls]
  cases event.asksTrust reg with
  | false => exact ⟨hmatched.1, fun c hmem => (hmatched.2 c hmem).1⟩
  | true =>
    cases router.trusted event reg with
    | false => simp [registrationId]
    | true =>
      refine ⟨nodup_cons.2 ⟨fun hmem => (hmatched.2 _ hmem).2 rfl, hmatched.1⟩, ?_⟩
      exact forall_mem_cons.2 ⟨rfl, fun c hmem => (hmatched.2 c hmem).1⟩

theorem nodup_flatMap_registrationCalls (h : (regs.map (·.id)).Nodup) :
    (regs.flatMap (router.registrationCalls event)).Nodup := by
  induction regs with
  | nil => exact nodup_nil
  | cons reg regs ih =>
    obtain ⟨hnew, hrest⟩ := nodup_cons.1 (show (reg.id :: regs.map (·.id)).Nodup from h)
    obtain ⟨hnodup, hid⟩ := registrationCalls_spec router event reg
    rw [flatMap_cons]
    refine nodup_append.2 ⟨hnodup, ih hrest, fun c hc c' hc' heq => hnew ?_⟩
    obtain ⟨reg', hmem, hc'⟩ := mem_flatMap.1 hc'
    rw [← hid c hc, heq, (registrationCalls_spec router event reg').2 c' hc']
    exact List.mem_map_of_mem hmem

theorem nodup_deliveryCalls (router : Router) (event : StoredEvent) :
    (router.deliveryCalls event).Nodup := by
  rw [deliveryCalls]
  split
  next regs hregs =>
    refine nodup_flatMap_registrationCalls ?_
    have hsub : regs.Sublist (router.getByEventType event.triggerType) := by
      rw [candidates] at hregs
      dsimp only at hregs
      split at hregs
      · cases hregs
      · split at hregs
        · cases hregs
          exact filter_sublist
        · split at hregs
          · cases hregs
          · cases hregs
            exact filter_sublist.trans filter_sublist
    exact (router.distinct event.triggerType).sublist (hsub.map _)
  next => exact nodup_nil

/-! ## An event that is tried again -/

/-- A call of `onEventMatched` was made, whether it throws or not. -/
def asMade (faults : Faults DeliveryCall DeliveryError) : Faults DeliveryCall DeliveryError
  | .onEventMatched id => (faults (.onEventMatched id)).map fun fault =>
    { fault with carriedOut := true }
  | c => faults c

/-- What the attempts have done, one after the other. -/
def history (router : Router) (event : StoredEvent)
    (attempts : List (Faults DeliveryCall DeliveryError)) : List DeliveryCall :=
  attempts.flatMap fun faults => (router.processSubscriptions event (asMade faults)).done

/-- Every subscriber was reached once, and no other one. -/
def DeliveredOnce (router : Router) (event : StoredEvent)
    (attempts : List (Faults DeliveryCall DeliveryError)) : Prop :=
  ∀ c, c.delivers = true → (history router event attempts).count c = if c ∈ router.deliveryCalls
    event then 1 else 0

/-- An event that succeeds at last has reached every subscriber once if and only if in each attempt
before, a call threw ahead of the first delivery, or the first delivery was an append that was not
carried out. -/
theorem delivered_once_iff {failed : List (Faults DeliveryCall DeliveryError)}
    {last : Faults DeliveryCall DeliveryError} {result : EventMatchResult}
    (hlast : (router.processSubscriptions event (asMade last)).result = .ok result) :
    DeliveredOnce router event (failed ++ [last]) ↔
      ∀ faults ∈ failed, FaultsFirst (asMade faults) DeliveryCall.delivers
      (router.deliveryCalls event) := by
  have hoblivious := oblivious_processSubscriptions router event
  have hplain : (router.processSubscriptions event noFaults).result = .ok result := by
    rw [hoblivious] at hlast
    exact (runCalls_of_ok hlast).2
  have hcalls := done_processSubscriptions hplain
  have hcount : ∀ c, (router.deliveryCalls event).count c = if c ∈ router.deliveryCalls event then 1
    else 0 :=
    fun c => (nodup_deliveryCalls router event).count
  have hmap : history router event (failed ++ [last]) = ((failed.map asMade) ++ [asMade last]).flatMap
    fun faults =>
      (router.processSubscriptions event faults).done := by
    have happend : (failed ++ [last]).map asMade = failed.map asMade ++ [asMade last] := map_append
    rw [← happend, flatMap_map]
    rfl
  have hiff := count_attempts_iff hoblivious DeliveryCall.delivers (failed.map asMade) hlast
  rw [hcalls] at hiff
  rw [DeliveredOnce, hmap]
  simp only [← hcount]
  exact hiff.trans List.forall_mem_map

/-! ### Two subscribers -/

/-- A workflow that `deploy` triggers. -/
def deployListener (id : JsString) : RegisteredWorkflow where
  id
  repoIdentifier := js "acme/app"
  lockEntry := ⟨id, [some (.kiciEvent ⟨js "deploy", none, none, none⟩)]⟩

/-- Two of them. -/
def deployRouter : Router where
  rt := literalRuntime
  getByEventType type :=
    if type = js "kici_event" then [deployListener (js "a"), deployListener (js "b")] else []
  distinct type := by
    split
    · decide
    · exact nodup_nil
  trusted _ _ := true
  failureLifecycle _ := false

def deployEvent : StoredEvent where
  eventName := js "deploy"
  sourceRepo := some (js "acme/infra")
  sourceRoutingKey := some (js "github:acme")

/-- One call throws. -/
def throwsAt (c : DeliveryCall) : Faults DeliveryCall DeliveryError := fun c' =>
  if c' = c then some ⟨false, .thrown (js "connection terminated")⟩ else none

/-- The trust in the source could not be looked up at first. -/
theorem delivered_once_iff_deploy : ∃ result,
    (deployRouter.processSubscriptions deployEvent (asMade noFaults)).result = .ok result ∧
      (DeliveredOnce deployRouter deployEvent ([throwsAt (.isTrusted (js "a"))] ++ [noFaults]) ↔
        ∀ faults ∈ [throwsAt (.isTrusted (js "a"))],
          FaultsFirst (asMade faults) DeliveryCall.delivers (deployRouter.deliveryCalls deployEvent)) :=
  have hlast : (deployRouter.processSubscriptions deployEvent (asMade noFaults)).result = .ok
    ⟨.matched, 2⟩ := rfl
  ⟨_, hlast, delivered_once_iff hlast⟩

/-- The second of two dispatches throws, and the first workflow is dispatched again. -/
theorem exists_dispatched_twice :
    (history deployRouter deployEvent [throwsAt (.onEventMatched (js "b")), noFaults]).count
        (.onEventMatched (js "a")) = 2 ∧
      ¬ DeliveredOnce deployRouter deployEvent [throwsAt (.onEventMatched (js "b")), noFaults] := by
  have htwice : (history deployRouter deployEvent [throwsAt (.onEventMatched (js "b")), noFaults]).count
      (.onEventMatched (js "a")) = 2 := rfl
  refine ⟨htwice, fun h => ?_⟩
  have honce := h (.onEventMatched (js "a")) rfl
  rw [htwice] at honce
  split at honce <;> cases honce

end Router

end Kici.Events
