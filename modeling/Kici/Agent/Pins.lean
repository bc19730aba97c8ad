import Kici.Agent.AckDeadline
import Kici.Queue.QueueSystem

/-!
# Jobs that are pinned to an agent

A job may name the agent that is to run it (`pinnedAgentId`). Any number of coordinators dispatch
jobs, claim them for their agents and send them; a job that does not get there is put back on the
queue, and taken from it again:

* `dispatch` sends a new job at once, or enqueues it; a pinned one goes to its agent only
  (`dispatchPinned`);
* an agent that is free takes a job that is pinned to it (`dequeueByPinnedAgent`) or one that its
  labels allow (`dequeueForLabels`);
* a coordinator claims a job by its id for an agent (`dequeueById`), which ignores the pin: for the
  agent that was started for the job (`dispatchBoundJob`), for one that is free when the job was put
  back (`redispatch`), or for one that it finds for a job that waits
  (`redrivePendingToConnectedAgents`).

`redispatch` and `dispatchBoundJob` do not look at the pin either. Where they choose the agent a
job is pinned to all the same (`ClaimsForPin`), each job is sent to the agent it is pinned to
(`pinAllows_of_sent`).
-/

namespace Kici

open List JobQueue

variable {row : DispatchRow} {agentId : String}

/-- Whether a job with the pin may be sent to the agent; an empty pin is none. -/
def pinAllows (pin : Option String) (agentId : String) : Prop := ∀ id ∈ pin, id = "" ∨ id = agentId

instance (pin : Option String) (agentId : String) : Decidable (pinAllows pin agentId) :=
  inferInstanceAs (Decidable (∀ id ∈ pin, id = "" ∨ id = agentId))

/-- The agent a job is pinned to. -/
def pinOf? (pin : Option String) : Option String := pin.filter (· ≠ "")

namespace JobQueue

variable (js : JsRuntime) (q : JobQueue) (db : Db) (now : ℕ) (agent : AgentQuery)

/-- Whether the expressions of a row leave it to the agent. -/
def patternsAllow (row : DispatchRow) : Bool :=
  match jobPatternsSatisfiedBy js (rowToQueuedJob js row) (js.canonicalizeLabels agent.agentLabels) with
  | .ok satisfied => satisfied
  | .error _ => false

/-- What all statements that select a job ask of its row. -/
def claimable (row : DispatchRow) : Bool :=
  row.status = .pending ∧ (∀ expiresAt ∈ row.expiresAt, db.now ≤ expiresAt) ∧ db.notTerminalRun row ∧
    q.isDeferredUnopenable now row.id = false

/-- The condition of `dequeueByPinnedAgent`. -/
def pinnedQuery (agentId : String) (row : DispatchRow) : Bool :=
  claimable q db now row && row.pinnedAgentId = some agentId

/-- The condition of `dequeueById`: the pin is not part of it. -/
def byIdQuery (row : DispatchRow) : Bool :=
  let canonicalAgentLabels := js.canonicalizeLabels agent.agentLabels
  let canonicalGate := js.canonicalizeLabels agent.agentMandatoryLabels
  claimable q db now row ∧
    (∀ l ∈ row.runsOnLabels, l ∈ canonicalAgentLabels) ∧
    (∀ l ∈ row.excludeLabels, l ∉ canonicalAgentLabels) ∧
    (canonicalGate ≠ [] → ∀ l ∈ canonicalGate, l ∈ row.runsOnLabels)

end JobQueue

/-- Where a job that is to be sent to an agent is. -/
inductive PinPoint
  /-- It is about to be selected by its id. -/
  | bound
  /-- It was selected, and is about to be claimed. -/
  | selected
  /-- It was claimed. -/
  | claimed
  /-- It was inserted as dispatched. -/
  | inserted

structure PinCall extends SentJob where
  point : PinPoint

structure PinState where
  db : Db
  calls : List PinCall := []
  /-- What was sent, to which agents. -/
  sent : List SentJob := []

inductive PinAction
  /-- A new job: `available` is an agent that is free for it, and `dispatchable` tells whether the
  one it is pinned to is. -/
  | dispatch (q : JobQueue) (now : ℕ) (job : QueuedJobInput) (timeoutMs : ℕ) (available : Option String)
      (dispatchable : Bool)
  | dequeueByPinnedAgent (q : JobQueue) (now : ℕ) (agent : AgentQuery) (agentId jobId : String)
  | dequeueForLabels (q : JobQueue) (now : ℕ) (agent : AgentQuery) (agentId jobId : String)
  | dispatchBoundJob (q : JobQueue) (now : ℕ) (agent : AgentQuery) (agentId jobId : String)
  /-- A job that was put back goes to an agent that is free for it. -/
  | redispatch (jobId agentId : String)
  /-- A job that waits; `available` is an agent that is free for it. -/
  | redrivePendingToConnectedAgents (jobId : String) (available : Option String)
  | dequeueById (q : JobQueue) (now : ℕ) (agent : AgentQuery) (k : ℕ)
  | claimRowById (q : JobQueue) (now : ℕ) (k : ℕ)
  /-- A job is sent, unless that fails. -/
  | deliver (q : JobQueue) (now : ℕ) (k : ℕ) (sent : Bool)
  /-- Any other statement on the queue: only insertions write pins. -/
  | update (u : {u : DispatchUpdate // ∀ r, (u.set r).pinnedAgentId = r.pinnedAgentId})
  | delete (jobId : String)
  /-- The other tables change. -/
  | setTables (executionRuns : List (String × ExecutionRunStatus))
    (clusterInstances : List (String × ℕ)) (now : ℕ)

namespace PinState

variable (js : JsRuntime) (pins : String → Option String) (s : PinState)

def addCall (agentId jobId : String) (point : PinPoint) : PinState :=
  { s with calls := s.calls ++ [⟨⟨agentId, jobId⟩, point⟩] }

/-- Insert a job that is to be sent to an agent, unless there is a row of it. -/
def dispatchTo (q : JobQueue) (now : ℕ) (job : QueuedJobInput) (agentId : String) : PinState :=
  if (s.db.row? job.jobId).isSome then s
  else { s with db := insertDispatched js q s.db now job agentId }.addCall agentId job.jobId .inserted

def enqueue (now : ℕ) (job : QueuedJobInput) (timeoutMs : ℕ) : PinState :=
  { s with db := JobQueue.enqueue js s.db now job timeoutMs }

def dispatch (q : JobQueue) (now : ℕ) (job : QueuedJobInput) (timeoutMs : ℕ) (available : Option String)
    (dispatchable : Bool) : PinState :=
  match pinOf? job.pinnedAgentId with
  | some pinnedAgentId =>
    if dispatchable then s.dispatchTo js q now job pinnedAgentId else s.enqueue js now job timeoutMs
  | none =>
    match available with
    | some agentId => s.dispatchTo js q now job agentId
    | none => s.enqueue js now job timeoutMs

/-- Select a job for an agent. -/
def select (query : DispatchRow → Bool) (agent : AgentQuery) (agentId jobId : String) : PinState :=
  match s.db.row? jobId with
  | some row =>
    if query row && patternsAllow js agent row then s.addCall agentId jobId .selected else s
  | none => s

/-- The agent that a job that waits is claimed for. -/
def selectConnectedTargetForPending (row : DispatchRow) (available : Option String) : Option String :=
  (pinOf? row.pinnedAgentId).or available

def step : PinAction → Option PinState
  | .dispatch q now job timeoutMs available dispatchable =>
    if job.pinnedAgentId = pins job.jobId then
      some (s.dispatch js q now job timeoutMs available dispatchable)
    else none
  | .dequeueByPinnedAgent q now agent agentId jobId =>
    some (s.select js (pinnedQuery q s.db now agentId) agent agentId jobId)
  | .dequeueForLabels q now agent agentId jobId =>
    some (s.select js (drainBaseQuery js q s.db now { agent with agentId := some agentId }) agent
      agentId jobId)
  | .dispatchBoundJob q now agent agentId jobId =>
    some (s.select js (byIdQuery js q s.db now agent) agent agentId jobId)
  | .redispatch jobId agentId =>
    match s.db.row? jobId with
    | some row => if row.status = .pending then some (s.addCall agentId jobId .bound) else none
    | none => none
  | .redrivePendingToConnectedAgents jobId available =>
    match s.db.row? jobId with
    | some row =>
      if row.status = .pending then
        some (match selectConnectedTargetForPending row available with
          | some agentId => s.addCall agentId jobId .bound
          | none => s)
      else none
    | none => none
  | .dequeueById q now agent k =>
    match s.calls[k]? with
    | some ⟨⟨agentId, jobId⟩, .bound⟩ =>
      some ({ s with calls := s.calls.eraseIdx k }.select js (byIdQuery js q s.db now agent) agent
        agentId jobId)
    | _ => none
  | .claimRowById q now k =>
    match s.calls[k]? with
    | some ⟨⟨agentId, jobId⟩, .selected⟩ =>
      let claim := q.claimRowById now jobId (some agentId)
      some (if (s.db.dispatchQueue.returning claim).isEmpty then { s with calls := s.calls.eraseIdx k }
        else { s with
          db := s.db.update claim
          calls := s.calls.set k ⟨⟨agentId, jobId⟩, .claimed⟩ })
    | _ => none
  | .deliver q now k sent =>
    match s.calls[k]? with
    | some ⟨d, .claimed⟩ => some { s with
        db := s.db.update (q.markDispatched now d.jobId d.agentId)
        calls := s.calls.eraseIdx k
        sent := s.sent ++ (if sent then [d] else []) }
    | some ⟨d, .inserted⟩ => some { s with
        calls := s.calls.eraseIdx k
        sent := s.sent ++ (if sent then [d] else []) }
    | _ => none
  | .update u => some { s with db := s.db.update u }
  | .delete jobId => some { s with db := { s.db with dispatchQueue := s.db.dispatchQueue.delete jobId } }
  | .setTables executionRuns clusterInstances now =>
    some { s with db := { s.db with
      executionRuns
      clusterInstances
      now } }

end PinState

open PinState

/-- The coordinators, on an empty queue at first; `pins` are the pins of the jobs. -/
def pinSystem (js : JsRuntime) (pins : String → Option String) : System PinState PinAction where
  init := {s | s.db.dispatchQueue = Table.empty DispatchRow.id ∧ s.calls = [] ∧ s.sent = []}
  step := step js pins

/-! ## Pins -/

theorem pinAllows_self (agentId : String) : pinAllows (some agentId) agentId := by
  intro id hid
  cases hid
  exact .inr rfl

theorem pinAllows_of_pinOf?_eq_none {pin : Option String} (h : pinOf? pin = none) :
    pinAllows pin agentId := by
  intro id hid
  cases hid
  exact .inl (by simpa [pinOf?] using h)

theorem pinAllows_of_pinOf?_eq_some {pin : Option String} (h : pinOf? pin = some agentId) :
    pinAllows pin agentId := by
  rw [pinOf?, Option.filter_eq_some_iff] at h
  exact h.1 ▸ pinAllows_self agentId

/-- A job that the labels of an agent allow is pinned to no other one. -/
theorem pinAllows_of_drainBaseQuery {js : JsRuntime} {q : JobQueue} {db : Db} {now : ℕ}
    {agent : AgentQuery} (hagent : agent.agentId = some agentId)
    (h : drainBaseQuery js q db now agent row) : pinAllows row.pinnedAgentId agentId := by
  have hpin := (of_decide_eq_true h).2.2.2.2.1
  rcases hpin with hpin | ⟨-, -, hpin⟩
  · exact hpin ▸ fun id hid => absurd hid (Option.not_mem_none id)
  · exact (hpin.trans hagent) ▸ pinAllows_self agentId

namespace PinState

variable {js : JsRuntime} {pins : String → Option String} {s t : PinState} {agentId jobId : String}
  {point : PinPoint}

/-- The rows have the pins of their jobs, and each job is on its way to the agent that it is pinned
to. -/
structure PinsKept (pins : String → Option String) (s : PinState) : Prop where
  rows : ∀ row ∈ s.db.dispatchQueue, row.pinnedAgentId = pins row.id
  calls : ∀ call ∈ s.calls, pinAllows (pins call.jobId) call.agentId
  sent : ∀ d ∈ s.sent, pinAllows (pins d.jobId) d.agentId

namespace PinsKept

section

variable (h : s.PinsKept pins)
include h

theorem row? (hrow : s.db.row? jobId = some row) :
    row.pinnedAgentId = pins jobId := by
  obtain ⟨hmem, rfl⟩ := Table.lookup_eq_some.1 hrow
  exact h.rows row hmem

theorem addCall (hpin : pinAllows (pins jobId) agentId) :
    (s.addCall agentId jobId point).PinsKept pins where
  rows := h.rows
  calls := by
    intro call hcall
    rcases mem_append.1 hcall with hcall | hcall
    · exact h.calls call hcall
    · rw [mem_singleton.1 hcall]
      exact hpin
  sent := h.sent

/-- A call is over. -/
theorem eraseCall {k : ℕ} : ({ s with calls := s.calls.eraseIdx k } : PinState).PinsKept pins :=
  { h with calls := fun call hcall => h.calls call (mem_of_mem_eraseIdx hcall) }

theorem update {u : DispatchUpdate} (hu : ∀ r, (u.set r).pinnedAgentId = r.pinnedAgentId) :
    ({ s with db := s.db.update u } : PinState).PinsKept pins where
  rows := Table.forall_mem_execute h.rows fun row _ _ hrow => by rw [hu, u.key_set]; exact hrow
  calls := h.calls
  sent := h.sent

theorem insert (hrow : row.pinnedAgentId = pins row.id) :
    ({ s with db := s.db.insert row } : PinState).PinsKept pins where
  rows := by
    intro row' hrow'
    rcases Table.mem_insertNew hrow' with hold | rfl
    · exact h.rows row' hold
    · exact hrow
  calls := h.calls
  sent := h.sent

theorem dispatchTo {q : JobQueue} {now : ℕ} {job : QueuedJobInput}
    (hjob : job.pinnedAgentId = pins job.jobId) (hpin : pinAllows job.pinnedAgentId agentId) :
    (s.dispatchTo js q now job agentId).PinsKept pins := by
  rw [dispatchTo.eq_def]
  split
  · exact h
  · exact (h.insert hjob).addCall (hjob ▸ hpin)

theorem sent_append {d : SentJob} {delivered : Bool} (hd : pinAllows (pins d.jobId) d.agentId) :
    ∀ d' ∈ s.sent ++ (if delivered then [d] else []), pinAllows (pins d'.jobId) d'.agentId := by
  intro d' hd'
  rcases mem_append.1 hd' with hd' | hd'
  · exact h.sent d' hd'
  · split at hd'
    · rw [mem_singleton.1 hd']
      exact hd
    · cases hd'

/-- A new job is sent to the agent that it is pinned to, if to any. -/
theorem dispatch {q : JobQueue} {now timeoutMs : ℕ} {job : QueuedJobInput} {available : Option String}
    {dispatchable : Bool} (hjob : job.pinnedAgentId = pins job.jobId) :
    (s.dispatch js q now job timeoutMs available dispatchable).PinsKept pins := by
  rw [dispatch.eq_def]
  split
  · next pinnedAgentId hpin =>
    split
    · exact h.dispatchTo hjob (pinAllows_of_pinOf?_eq_some hpin)
    · exact h.insert hjob
  · next hpin =>
    split
    · exact h.dispatchTo hjob (pinAllows_of_pinOf?_eq_none hpin)
    · exact h.insert hjob

/-- A job that is selected for an agent is pinned to no other one. -/
theorem select {query : DispatchRow → Bool} {agent : AgentQuery}
    (hquery : ∀ row, s.db.row? jobId = some row → query row → pinAllows (pins jobId) agentId) :
    (s.select js query agent agentId jobId).PinsKept pins := by
  rw [select.eq_def]
  split
  · next row hrow =>
    split
    · next hselected =>
      rw [Bool.and_eq_true] at hselected
      exact h.addCall (hquery row hrow hselected.1)
    · exact h
  · exact h

end

end PinsKept

/-- A coordinator claims a job by its id, for an agent that was started for it or that is free as the
job was put back, only if the job is pinned to no other agent. -/
def ClaimsForPin (pins : String → Option String) : PinAction → Prop
  | .dispatchBoundJob _ _ _ agentId jobId => pinAllows (pins jobId) agentId
  | .redispatch jobId agentId => pinAllows (pins jobId) agentId
  | _ => True

instance : (a : PinAction) → Decidable (ClaimsForPin pins a)
  | .dispatchBoundJob _ _ _ agentId jobId => inferInstanceAs (Decidable (pinAllows (pins jobId) agentId))
  | .redispatch jobId agentId => inferInstanceAs (Decidable (pinAllows (pins jobId) agentId))
  | .dispatch .. | .dequeueByPinnedAgent .. | .dequeueForLabels .. | .redrivePendingToConnectedAgents ..
  | .dequeueById .. | .claimRowById .. | .deliver .. | .update .. | .delete ..
  | .setTables .. => .isTrue trivial

theorem PinsKept.step {a : PinAction} (h : s.PinsKept pins) (hok : ClaimsForPin pins a)
    (hstep : s.step js pins a = some t) : t.PinsKept pins := by
  cases a with
  | dispatch q now job timeoutMs available dispatchable =>
    rw [PinState.step] at hstep
    split at hstep
    · next hjob =>
      cases hstep
      exact h.dispatch hjob
    · cases hstep
  | dequeueByPinnedAgent q now agent agentId jobId =>
    cases hstep
    refine h.select fun row hrow hquery => ?_
    rw [pinnedQuery, Bool.and_eq_true] at hquery
    rw [← h.row? hrow, of_decide_eq_true hquery.2]
    exact pinAllows_self agentId
  | dequeueForLabels q now agent agentId jobId =>
    cases hstep
    exact h.select fun row hrow hquery => h.row? hrow ▸ pinAllows_of_drainBaseQuery rfl hquery
  | dispatchBoundJob q now agent agentId jobId =>
    cases hstep
    exact h.select fun _ _ _ => hok
  | redispatch jobId agentId =>
    rw [PinState.step] at hstep
    split at hstep
    · split at hstep <;> cases hstep
      exact h.addCall hok
    · cases hstep
  | redrivePendingToConnectedAgents jobId available =>
    rw [PinState.step] at hstep
    split at hstep
    · next row hrow =>
      split at hstep <;> cases hstep
      split
      · next agentId htarget =>
        refine h.addCall ?_
        rw [← h.row? hrow]
        rw [selectConnectedTargetForPending] at htarget
        cases hpin : pinOf? row.pinnedAgentId with
        | none => exact pinAllows_of_pinOf?_eq_none hpin
        | some pinnedAgentId =>
          rw [hpin] at htarget
          cases htarget
          exact pinAllows_of_pinOf?_eq_some hpin
      · exact h
    · cases hstep
  | dequeueById q now agent k =>
    rw [PinState.step] at hstep
    split at hstep <;> cases hstep
    next agentId jobId hget =>
    have hpin := h.calls _ (mem_of_getElem? hget)
    exact h.eraseCall.select fun _ _ _ => hpin
  | claimRowById q now k =>
    rw [PinState.step] at hstep
    split at hstep <;> cases hstep
    next agentId jobId hget =>
    have hpin := h.calls _ (mem_of_getElem? hget)
    split
    · exact h.eraseCall
    · have hclaimed := h.update (u := q.claimRowById now jobId (some agentId)) fun _ => rfl
      exact { hclaimed with
        calls := by
          intro call hcall
          rcases mem_or_eq_of_mem_set hcall with hcall | rfl
          · exact h.calls call hcall
          · exact hpin }
  | deliver q now k sent =>
    rw [PinState.step] at hstep
    split at hstep <;> cases hstep
    · next d hget =>
      have hmarked := h.update (u := q.markDispatched now d.jobId d.agentId) fun _ => rfl
      exact { hmarked.eraseCall with sent := h.sent_append (h.calls _ (mem_of_getElem? hget)) }
    · next d hget =>
      exact { h.eraseCall with sent := h.sent_append (h.calls _ (mem_of_getElem? hget)) }
  | update u =>
    cases hstep
    exact h.update u.2
  | delete jobId =>
    cases hstep
    exact { h with rows := fun row hrow => h.rows row (Table.mem_delete.1 hrow).1 }
  | setTables executionRuns clusterInstances now =>
    cases hstep
    exact { h with }

end PinState

section Runs

variable {js : JsRuntime} {pins : String → Option String} {s : PinState}

/-- Each job is sent to the agent that it is pinned to. -/
theorem pinAllows_of_sent
    (hreach : (pinSystem js pins).Reachable (fun _ a => ClaimsForPin pins a) s) :
    ∀ d ∈ s.sent, pinAllows (pins d.jobId) d.agentId := by
  have hkept : s.PinsKept pins := by
    refine hreach.invariant (fun s hinit => ?_) fun _ _ _ h hok hstep => h.step hok hstep
    obtain ⟨hrows, hcalls, hsent⟩ := hinit
    exact {
      rows := fun row hrow => absurd (hrows ▸ hrow) not_mem_nil
      calls := fun call hcall => absurd (hcalls ▸ hcall) not_mem_nil
      sent := fun d hd => absurd (hsent ▸ hd) not_mem_nil }
  exact hkept.sent

/-- One job, which is pinned to an agent. -/
def pinnedJob : QueuedJobInput where
  jobId := "job-1"
  runId := "run-1"
  jobName := "test"
  pinnedAgentId := some "host-1"

def hostPins : String → Option String := fun jobId => if jobId = "job-1" then some "host-1" else none

/-- The job is sent to its agent, which rejects it: it is put back. -/
def sendAndReject : List PinAction :=
  [.dispatch {} 0 pinnedJob 0 none true, .deliver {} 0 0 true,
    .update ⟨requeue emptyQueue.db "job-1" true none, fun _ => rfl⟩]

/-- Once it is free again, its agent takes the job. -/
theorem pinAllows_of_sent_requeued : ∃ s : PinState,
    (pinSystem lowercaseRuntime hostPins).Reachable (fun _ a => ClaimsForPin hostPins a) s ∧
      s.sent = [⟨"host-1", "job-1"⟩, ⟨"host-1", "job-1"⟩] ∧
      ∀ d ∈ s.sent, pinAllows (hostPins d.jobId) d.agentId := by
  obtain ⟨s, hpath, hs⟩ : ∃ s, (pinSystem lowercaseRuntime hostPins).Path
      (fun _ a => ClaimsForPin hostPins a) { db := emptyQueue.db } s ∧
      decide (s.sent = [⟨"host-1", "job-1"⟩, ⟨"host-1", "job-1"⟩]) :=
    System.exists_path_of_run (fun _ _ => of_decide_eq_true)
      (sendAndReject ++ [.redrivePendingToConnectedAgents "job-1" none,
        .dequeueById {} 0 { agentLabels := [] } 0,
        .claimRowById {} 0 0, .deliver {} 0 0 true]) (by decide)
  have hreach : (pinSystem lowercaseRuntime hostPins).Reachable (fun _ a => ClaimsForPin hostPins a) s :=
    ⟨_, ⟨rfl, rfl, rfl⟩, hpath⟩
  exact ⟨s, hreach, of_decide_eq_true hs, pinAllows_of_sent hreach⟩

/-- As the job is put back, it goes to another agent that is free. -/
theorem exists_sent_not_pinAllows : ∃ pins s,
    (pinSystem lowercaseRuntime pins).Reachable System.anyStep s ∧
    ∃ d ∈ s.sent, ¬pinAllows (pins d.jobId) d.agentId := by
  obtain ⟨s, hpath, hs⟩ := (pinSystem lowercaseRuntime hostPins).exists_path { db := emptyQueue.db }
      (fun s => ∃ d ∈ s.sent, ¬pinAllows (hostPins d.jobId) d.agentId) System.anyStep_of_true
      (sendAndReject ++ [PinAction.redispatch "job-1" "host-2",
        .dequeueById {} 0 { agentLabels := [] } 0,
        .claimRowById {} 0 0, .deliver {} 0 0 true]) (by decide)
  exact ⟨_, s, ⟨_, ⟨rfl, rfl, rfl⟩, hpath⟩, hs⟩

end Runs

end Kici
