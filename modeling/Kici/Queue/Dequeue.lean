import Kici.Queue.QueueSystem

/-!
# Dequeues at the same time

The three ways to take a job from the queue, statement by statement: any number of
coordinators run `dequeueForLabels`, `dequeueByPinnedAgent` and `dequeueById` at the
same time, and between two statements of a call (`DequeueCall`) anything may happen to
the queue, in particular requeues, and claims of the rows the call has selected.

`dequeue_exclusive`: from one moment at which a job is pending to the next, at most one
call returns it, and right after the claim the row names the agent of that call. A row
is selected by any number of calls; what decides is that a claim finds it pending
(`DequeueState.claim_eq_some`), and that a pending row names no agent
(`QueueState.pendingUnowned_of_reachable`).

The claims are steps of the queue system (`DequeueState.queue_reachable`), so that what
holds there holds here.
-/

namespace Kici

open DispatchRow JobQueue System Table Option

variable {agentId : Option String}

namespace JobQueue

variable (js : JsRuntime) (q : JobQueue) (order : OrderBy createdAt) (db : Db)
  (now : ℕ)

/-- The rows `claimWithPatterns` looks at. -/
def selectWithPatterns (agent : AgentQuery) : List DispatchRow :=
  (oldestFirst order db fun row =>
    drainBaseQuery js q db now agent row && !patternFree row).take 10

/-- The rows `claimWithPostFilter` looks at. -/
def selectForPostFilter (agent : AgentQuery) : List DispatchRow :=
  (oldestFirst order db fun row => drainBaseQuery js q db now agent row).take 10

/-- The row `dequeueByPinnedAgent` looks at: the oldest one that is pinned to the agent. -/
def selectPinned (agentId : String) : List DispatchRow :=
  (oldestFirst order db fun row =>
    row.status = .pending ∧ row.pinnedAgentId = some agentId ∧
      (∀ expiresAt ∈ row.expiresAt, db.now ≤ expiresAt) ∧ db.notTerminalRun row ∧
      q.isDeferredUnopenable now row.id = false).take 1

/-- The row `dequeueById` looks at. -/
def selectById (jobId : String) (agentLabels agentMandatoryLabels : List String) :
    List DispatchRow :=
  let canonicalAgentLabels := js.canonicalizeLabels agentLabels
  let canonicalGate := js.canonicalizeLabels agentMandatoryLabels
  db.dispatchQueue.rows.filter fun row =>
    row.id = jobId ∧ row.status = .pending ∧
      (∀ expiresAt ∈ row.expiresAt, db.now ≤ expiresAt) ∧
      (∀ l ∈ row.runsOnLabels, l ∈ canonicalAgentLabels) ∧
      (∀ l ∈ row.excludeLabels, l ∉ canonicalAgentLabels) ∧
      (canonicalGate ≠ [] → ∀ l ∈ canonicalGate, l ∈ row.runsOnLabels) ∧
      db.notTerminalRun row ∧ q.isDeferredUnopenable now row.id = false

end JobQueue

/-- A dequeue between two of its statements. -/
inductive DequeueCall
  /-- No row without expressions was to be had. -/
  | claimWithPatterns (q : JobQueue) (agent : AgentQuery)
  /-- The rows are still to be looked at, the first one to be had that is admitted is
  claimed. -/
  | claimFirst (q : JobQueue) (agentId : Option String)
      (admits : QueuedJob → Except RegExpError Bool) (rows : List DispatchRow)

/-- A job a call returned to its caller. -/
structure Returned where
  jobId : String
  /-- The agent the caller asked for. -/
  agentId : Option String

structure DequeueState where
  queue : QueueState
  calls : List DequeueCall := []
  returned : List Returned := []

inductive DequeueAction
  | dequeueForLabels (q : JobQueue) (now : ℕ) (agent : AgentQuery)
      (canServe : Option (QueuedJob → Bool))
  | dequeueByPinnedAgent (q : JobQueue) (now : ℕ) (agentId : String)
      (agentLabels : Option (List String))
  | dequeueById (q : JobQueue) (now : ℕ) (jobId : String)
      (agentLabels agentMandatoryLabels : List String) (claimingAgentId : Option String)
  /-- A call executes its next statement. -/
  | next (now : ℕ) (k : ℕ)
  /-- Anything else happens to the queue. -/
  | other (a : QueueAction)

/-- Whether the statement is one by which a call takes a job for its caller. -/
def QueueAction.isDequeue : QueueAction → Bool
  | .claimPatternFree .. | .claimRowById .. => true
  | _ => false

namespace DequeueState

variable (js : JsRuntime) (order : OrderBy createdAt) (s : DequeueState)

/-- Whether the job waits to be claimed. -/
def Pending (jobId : String) : Prop :=
  ∃ row, s.queue.db.row? jobId = some row ∧ row.status = .pending

/-- The calls that have returned the job. -/
def returnsOf (jobId : String) : List Returned := s.returned.filter fun r => r.jobId = jobId

/-- The state once a call selected the rows it looks at. -/
def select (q : JobQueue) (agentId : Option String)
    (admits : QueuedJob → Except RegExpError Bool) (rows : List DispatchRow) : DequeueState :=
  { s with calls := s.calls ++ [.claimFirst q agentId admits rows] }

/-- Execute a claim; `none` if there was nothing to claim. -/
def claim (u : DispatchUpdate) (agentId : Option String) : Option DequeueState :=
  match s.queue.db.dispatchQueue.returning u with
  | row :: _ => some { s with
      queue := s.queue.claim u agentId
      returned := s.returned ++ [⟨row.id, agentId⟩] }
  | [] => none

/-- The next statement of a call, and the call afterwards, unless it is over. -/
def nextOf (now : ℕ) : DequeueCall → DequeueState × Option DequeueCall
  | .claimWithPatterns q agent =>
    let labelSet := js.canonicalizeLabels agent.agentLabels
    (s, some (.claimFirst q agent.agentId (fun job => jobPatternsSatisfiedBy js job labelSet)
      (q.selectWithPatterns js order s.queue.db now agent)))
  | .claimFirst _ _ _ [] => (s, none)
  | .claimFirst q agentId admits (row :: rows) =>
    match admits (rowToQueuedJob js row) with
    -- An expression that does not compile ends the call.
    | .error _ => (s, none)
    | .ok false => (s, some (.claimFirst q agentId admits rows))
    | .ok true =>
      match s.claim (q.claimRowById now row.id agentId) agentId with
      | some t => (t, none)
      | none => (s, some (.claimFirst q agentId admits rows))

open JobQueue in
def step : DequeueAction → Option DequeueState
  | .dequeueForLabels q now agent none =>
    match s.claim (claimPatternFree js q order s.queue.db now agent) agent.agentId with
    | some t => some t
    | none => some { s with calls := s.calls ++ [.claimWithPatterns q agent] }
  | .dequeueForLabels q now agent (some canServe) =>
    let labelSet := js.canonicalizeLabels agent.agentLabels
    some (s.select q agent.agentId
      (fun job => do return (← jobPatternsSatisfiedBy js job labelSet) && canServe job)
      (q.selectForPostFilter js order s.queue.db now agent))
  | .dequeueByPinnedAgent q now agentId agentLabels =>
    some (s.select q (some agentId)
      (fun job => match agentLabels with
        | some labels => jobPatternsSatisfiedBy js job (js.canonicalizeLabels labels)
        | none => .ok true)
      (q.selectPinned order s.queue.db now agentId))
  | .dequeueById q now jobId agentLabels agentMandatoryLabels claimingAgentId =>
    some (s.select q claimingAgentId
      (fun job => jobPatternsSatisfiedBy js job (js.canonicalizeLabels agentLabels))
      (q.selectById js s.queue.db now jobId agentLabels agentMandatoryLabels))
  | .next now k =>
    match s.calls[k]? with
    | some call =>
      let (t, rest) := s.nextOf js order now call
      some { t with calls := s.calls.take k ++ rest.toList ++ s.calls.drop (k + 1) }
    | none => none
  | .other a =>
    if a.isDequeue then none
    else (s.queue.step js order a).map fun queue => { s with queue }

end DequeueState

open DequeueState

/-- The dequeues as a transition system, on an empty queue at first. -/
def dequeueSystem (js : JsRuntime) (order : OrderBy createdAt) :
    System DequeueState DequeueAction where
  init := {s | s.queue ∈ (queueSystem js order).init ∧ s.calls = [] ∧ s.returned = []}
  step := step js order

/-! ## Pending rows -/

namespace QueueState

variable {js : JsRuntime} {order : OrderBy createdAt} {s t : QueueState}
  {u : DispatchUpdate}

/-- No pending row names an agent: a requeue forgets the one that had the job. -/
def PendingUnowned (s : QueueState) : Prop :=
  ∀ r ∈ s.db.dispatchQueue, r.status = .pending → r.agentId = none

/-- An update of rows that are not pending afterwards, unless they name no agent. -/
theorem PendingUnowned.write (hs : s.PendingUnowned)
    (hset : ∀ r, (r.status = .pending → r.agentId = none) →
      (u.set r).status = .pending → (u.set r).agentId = none) : (s.write u).PendingUnowned :=
  forall_mem_execute hs fun r _ _ hr => hset r hr

/-- A new row is not pending, or names no agent. -/
theorem PendingUnowned.insert (hs : s.PendingUnowned) {r : DispatchRow}
    (hr : r.status = .pending → r.agentId = none) (ht : t.db = s.db.insert r) :
    t.PendingUnowned := by
  intro r' hr'
  rw [ht] at hr'
  rcases mem_insertNew hr' with hr' | rfl
  · exact hs r' hr'
  · exact hr

theorem PendingUnowned.step (hs : s.PendingUnowned) {a : QueueAction}
    (hstep : s.step js order a = some t) : t.PendingUnowned := by
  unfold QueueState.step at hstep
  cases a with
  | enqueue =>
    cases hstep
    exact hs.insert (fun _ => rfl) rfl
  | insertDispatched =>
    simp only at hstep
    split at hstep <;> cases hstep
    · exact hs
    · exact hs.insert (fun h => by cases h) rfl
  | requeue | requeueIfAwaitingAck =>
    cases hstep
    exact hs.write fun _ _ _ => rfl
  | setAckDeadline | clearAckDeadline =>
    cases hstep
    exact hs.write fun _ hr h => hr h
  | settleClaimOfStoppedRun | claimPatternFree | claimRowById | claimUnopenableById | markFailed |
      markCompleted | failByRunId | cancelByRunId | markFailedIfRecovering | claimUnroutable =>
    cases hstep
    exact hs.write fun _ _ h => by cases h
  | markDispatched | markExpiredUpdate | sweepExpiredRecoveriesUpdate =>
    simp only at hstep
    split at hstep
    · cases hstep
      exact hs.write fun _ _ h => by cases h
    · cases hstep
  | startRecoveryForDisconnect | startRecoveryTimer | reconcileRecovery =>
    obtain ⟨-, ⟨⟩⟩ := ite_none_right_eq_some.1 hstep
    exact hs.write fun _ _ h => by cases h
  | markExpiredSelect | sweepExpiredRecoveriesSelect | readOrphans | recoverState | setRunStatus |
      heartbeat | tick =>
    cases hstep
    exact hs

theorem pendingUnowned_of_reachable (h : (queueSystem js order).Reachable anyStep s) :
    s.PendingUnowned := by
  refine h.invariant (fun s hs => ?_) fun _ _ _ hs _ hstep => hs.step hstep
  simp [PendingUnowned, hs.1, empty, Table.mem_def]

end QueueState

/-! ## What a step returns -/

namespace JobQueue

/-- A claim finds its rows pending, dispatches them, and gives them its agent. -/
structure Claims (u : DispatchUpdate) (agentId : Option String) : Prop where
  pending : ∀ r, u.guard r → r.status = .pending
  dispatched : ∀ r, (u.set r).status = .dispatched
  agentId : ∀ r, (u.set r).agentId = agentId.or r.agentId

variable {js : JsRuntime} {q : JobQueue} {order : OrderBy createdAt} {db : Db} {now : ℕ}

theorem claims_claimRowById {jobId : String} :
    Claims (q.claimRowById now jobId agentId) agentId := by
  refine ⟨fun r hr => ?_, fun _ => rfl, fun _ => rfl⟩
  simp only [claimRowById, decide_eq_true_eq] at hr
  exact hr.2

theorem claims_claimPatternFree {agent : AgentQuery} :
    Claims (claimPatternFree js q order db now agent) agent.agentId := by
  refine ⟨fun r hr => ?_, fun _ => rfl, fun _ => rfl⟩
  simp only [claimPatternFree, decide_eq_true_eq] at hr
  exact hr.2

end JobQueue

namespace DequeueState

variable {js : JsRuntime} {order : OrderBy createdAt} {s t : DequeueState}
  {u : DispatchUpdate} {a : DequeueAction}

/-- What a call returns, and finds in the queue, when it returns a job. -/
structure Returns (s : DequeueState) (r : Returned) (t : DequeueState) : Prop where
  returned : t.returned = s.returned ++ [r]
  pending : s.Pending r.jobId
  /-- The row names the agent of the caller. -/
  row : s.queue.PendingUnowned →
    ∃ row, t.queue.db.row? r.jobId = some row ∧ row.status = .dispatched ∧ row.agentId = r.agentId

theorem claim_eq_some (hu : Claims u agentId)
    (h : s.claim u agentId = some t) : ∃ r, s.Returns r t ∧ t.queue = s.queue.claim u agentId := by
  rw [claim] at h
  split at h
  · next row rows hrows =>
    cases h
    have hrow : row ∈ s.queue.db.dispatchQueue.returning u := by
      rw [hrows]
      exact List.mem_cons_self
    obtain ⟨r, hr, hguard, rfl⟩ := mem_returning.1 hrow
    have hlookup := lookup_of_mem hr
    refine ⟨_, ⟨rfl, ⟨r, ?_, hu.pending r hguard⟩, fun hs => ⟨u.set r, ?_, hu.dispatched r, ?_⟩⟩, rfl⟩
    · rw [u.key_set]
      exact hlookup
    · rw [u.key_set]
      exact lookup_execute_of_guard hlookup hguard
    · rw [hu.agentId, hs r hr (hu.pending r hguard), or_none]
  · cases h

/-- A step of the calls: nothing is returned, or one job, and the queue makes a step of its own,
or none. -/
inductive Effect (js : JsRuntime) (order : OrderBy createdAt) (s t : DequeueState) : Prop
  | idle (returned : t.returned = s.returned) (queue : t.queue = s.queue)
  | other {b : QueueAction} (returned : t.returned = s.returned)
      (queue : s.queue.step js order b = some t.queue)
  | returns {r : Returned} {b : QueueAction} (returns : s.Returns r t)
      (queue : s.queue.step js order b = some t.queue)

/-- The calls in flight are of no importance for what a step does. -/
theorem Effect.calls (h : Effect js order s t) (calls : List DequeueCall) :
    Effect js order s { t with calls } := by
  cases h with
  | idle hreturned hqueue => exact .idle hreturned hqueue
  | other hreturned hqueue => exact .other hreturned hqueue
  | returns hr hqueue => exact .returns ⟨hr.returned, hr.pending, hr.row⟩ hqueue

theorem effect_nextOf (now : ℕ) (call : DequeueCall) :
    Effect js order s (s.nextOf js order now call).1 := by
  cases call with
  | claimWithPatterns => exact .idle rfl rfl
  | claimFirst q agentId admits rows =>
    cases rows with
    | nil => exact .idle rfl rfl
    | cons row rows =>
      simp only [nextOf]
      split
      · exact .idle rfl rfl
      · exact .idle rfl rfl
      · split
        · next hclaim =>
          obtain ⟨r, hr, hqueue⟩ := claim_eq_some claims_claimRowById hclaim
          refine .returns (b := .claimRowById q now row.id agentId) hr ?_
          rw [hqueue]
          rfl
        · exact .idle rfl rfl

theorem effect_step (h : s.step js order a = some t) :
    Effect js order s t := by
  cases a with
  | dequeueForLabels q now agent canServe =>
    cases canServe with
    | none =>
      simp only [step] at h
      split at h
      · next hclaim =>
        cases h
        obtain ⟨r, hr, hqueue⟩ := claim_eq_some claims_claimPatternFree hclaim
        refine .returns (b := .claimPatternFree q now agent) hr ?_
        rw [hqueue]
        rfl
      · cases h
        exact .idle rfl rfl
    | some canServe =>
      cases h
      exact .idle rfl rfl
  | dequeueByPinnedAgent | dequeueById =>
    cases h
    exact .idle rfl rfl
  | next now k =>
    simp only [step] at h
    split at h
    · next call _ =>
      cases h
      exact (effect_nextOf now call).calls _
    · cases h
  | other b =>
    simp only [step] at h
    split at h
    · cases h
    · obtain ⟨queue, hqueue, rfl⟩ := map_eq_some_iff.1 h
      exact .other rfl hqueue

/-- The queue of the calls is a queue of the queue system. -/
theorem queue_reachable (h : (dequeueSystem js order).Reachable anyStep s) :
    (queueSystem js order).Reachable anyStep s.queue := by
  refine h.invariant (P := fun s => (queueSystem js order).Reachable anyStep s.queue)
    (fun s hs => ⟨_, hs.1, .refl⟩) fun s a t hs _ hstep => ?_
  cases effect_step hstep with
  | idle _ hqueue => rwa [hqueue]
  | other _ hqueue | returns _ hqueue => exact hs.trans (System.Path.refl.tail trivial hqueue)

/-! ## From one pending moment to the next -/

variable {jobId : String}

/-- A step returns a job at most once. -/
theorem returnsOf_step (h : s.step js order a = some t) :
    (t.returnsOf jobId).length ≤ (s.returnsOf jobId).length + 1 := by
  cases effect_step h with
  | idle hreturned | other hreturned => rw [returnsOf, hreturned, returnsOf]; omega
  | @returns r _ hr _ =>
    have hle := List.length_filter_le (fun r : Returned => decide (r.jobId = jobId)) [r]
    rw [List.length_singleton] at hle
    rw [returnsOf, hr.returned, List.filter_append, List.length_append, returnsOf]
    omega

/-- A job that is not pending is not returned. -/
theorem returnsOf_step_of_not_pending (h : s.step js order a = some t)
    (hs : ¬s.Pending jobId) : t.returnsOf jobId = s.returnsOf jobId := by
  cases effect_step h with
  | idle hreturned | other hreturned => rw [returnsOf, hreturned, returnsOf]
  | @returns r _ hr _ =>
    have hne : r.jobId ≠ jobId := fun heq => hs (heq ▸ hr.pending)
    rw [returnsOf, hr.returned, List.filter_append, returnsOf]
    simp [hne]

/-- No call returns the job as long as it is not pending. -/
theorem returnsOf_path (h : (dequeueSystem js order).Path (fun s _ => ¬s.Pending jobId) s t) :
    t.returnsOf jobId = s.returnsOf jobId :=
  h.invariant (P := fun t => t.returnsOf jobId = s.returnsOf jobId) rfl
    fun _ _ _ ih hs hstep => (returnsOf_step_of_not_pending hstep hs).trans ih

end DequeueState

/-- From a moment on, up to the next one at which the job is pending, at most one call
returns it; and a call that returns a job has claimed it for its agent. -/
theorem dequeue_exclusive {js : JsRuntime} {order : OrderBy createdAt}
    {s t u : DequeueState} {a : DequeueAction}
    (h : (dequeueSystem js order).Reachable anyStep s)
    (hstep : (dequeueSystem js order).step s a = some t) (jobId : String)
    (hpath : (dequeueSystem js order).Path (fun s _ => ¬s.Pending jobId) t u) :
    (u.returnsOf jobId).length ≤ (s.returnsOf jobId).length + 1 ∧
      (t.returned = s.returned ∨ ∃ r row, t.returned = s.returned ++ [r] ∧
        t.queue.db.row? r.jobId = some row ∧ row.status = .dispatched ∧ row.agentId = r.agentId) := by
  refine ⟨?_, ?_⟩
  · rw [returnsOf_path hpath]
    exact returnsOf_step hstep
  · cases effect_step hstep with
    | idle hreturned | other hreturned => exact .inl hreturned
    | returns hr =>
      have hpending := QueueState.pendingUnowned_of_reachable (queue_reachable h)
      obtain ⟨row, hrow⟩ := hr.row hpending
      exact .inr ⟨_, row, hr.returned, hrow⟩

/-- Two calls select the job, and the first one returns it. -/
theorem dequeue_exclusive_selected_twice : ∃ s u : DequeueState,
    s.calls.length = 2 ∧ s.Pending "job" ∧ u.calls.length = 0 ∧ u.returned.length = 1 ∧
      (u.returnsOf "job").length ≤ (s.returnsOf "job").length + 1 := by
  obtain ⟨s, hpath, hs⟩ := (dequeueSystem lowercaseRuntime createdAtOrder).exists_path
    { queue := emptyQueue }
      (fun s => (s.calls.length = 2 && (s.queue.db.row? "job").any (·.status = .pending)) &&
        ((dequeueSystem
        lowercaseRuntime createdAtOrder).step s (.next 1 0)).any fun t =>
          ((dequeueSystem lowercaseRuntime
        createdAtOrder).run (fun t _ => (t.queue.db.row? "job").all (·.status ≠ .pending)) t
          [.next 1 0, .next 1 0]).any
        fun u => u.calls.length = 0 && u.returned.length = 1) anyStep_of_true
      [.other (.enqueue 0 anyAgentJob 0), .dequeueById {} 1 "job" [] [] (some "agent"),
        .dequeueForLabels {} 1 { agentLabels := [] } (some fun _ => true)]
      (by decide)
  simp only [Bool.and_eq_true, decide_eq_true_eq] at hs
  obtain ⟨⟨hcalls, hrow⟩, ht⟩ := hs
  obtain ⟨row, hrow, hpending⟩ := (any_eq_true ..).1 hrow
  obtain ⟨t, hstep, hu⟩ := (any_eq_true ..).1 ht
  have hnotPending : ∀ (t : DequeueState) (_ : DequeueAction),
      ((t.queue.db.row? "job").all (·.status ≠ .pending)) → ¬t.Pending "job" :=
    fun t _ ht ⟨row, hrow, hpending⟩ => by simp [hrow, hpending] at ht
  obtain ⟨u, htu, hu⟩ := exists_path_of_run hnotPending _ hu
  simp only [Bool.and_eq_true, decide_eq_true_eq] at hu
  refine ⟨s, u, hcalls, ⟨row, hrow, of_decide_eq_true hpending⟩, hu.1, hu.2, ?_⟩
  exact (dequeue_exclusive ⟨_, ⟨emptyQueue_mem_init .., rfl, rfl⟩, hpath⟩ hstep "job" htu).1

end Kici
