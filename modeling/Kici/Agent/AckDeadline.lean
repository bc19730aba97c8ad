import Kici.Foundation.System
import Kici.Queue.JobQueue

/-!
# The deadline of an acknowledgement

A job that is sent to an agent is lost if the agent neither acknowledges it (`onJobAcked`) nor
reports that it runs (`markJobStarted`) in time: a timer fires, and the job is put back on the
queue (`handleAckExpiry`). What is waited for is kept in memory (`pendingAcks`) and in the row of
the job; `armAckDeadline` reads how long to wait first, and an acknowledgement that comes
meanwhile is kept apart (`earlyAcks`).

The coordinator sends any jobs to any agents, each job once. The statements that nothing waits
for (`AckStatement`) run in any order, and others write to the queue at any time.

A report that the job runs is not kept as an acknowledgement is, and drops the one that is kept;
and nothing stops a timer that has fired. Where neither comes in between (`AnsweredInTime`), no job
that the agent has accepted is put back (`not_accepted_of_requeued`).
-/

namespace Kici

open List Option

/-- A job that is sent to an agent. -/
structure SentJob where
  agentId : String
  jobId : String
  deriving DecidableEq

/-- How far `armAckDeadline` is. -/
inductive ArmPoint
  | start
  /-- It reads how long to wait. -/
  | timeout
  deriving DecidableEq

/-- A call of `armAckDeadline`. -/
structure Arming extends SentJob where
  point : ArmPoint

/-- A statement that nothing waits for. -/
inductive AckStatement
  | setAckDeadline (jobId : String) (deadline : ℕ) (agentId : String)
  | clearAckDeadline (jobId : String)
  | markCompleted (jobId : String)

def AckStatement.update : AckStatement → DispatchUpdate
  | .setAckDeadline jobId deadline agentId => JobQueue.setAckDeadline jobId deadline agentId
  | .clearAckDeadline jobId => JobQueue.clearAckDeadline jobId
  | .markCompleted jobId => JobQueue.markCompleted jobId

structure AckState where
  db : Db
  /-- The agents whose acknowledgements are waited for, by their jobs. -/
  pendingAcks : String → Option String := fun _ => none
  /-- The agents whose acknowledgements came before they were waited for. -/
  earlyAcks : String → Option String := fun _ => none
  armings : List Arming := []
  /-- The timers that are to fire; a job has one at most. -/
  timers : List SentJob := []
  /-- The calls of `handleAckExpiry` whose statement is to run. -/
  expiries : List SentJob := []
  statements : List AckStatement := []
  /-- What was sent. -/
  sent : List SentJob := []
  /-- The jobs whose agent has acknowledged them, or reported that they run. -/
  accepted : List String := []
  /-- What `handleAckExpiry` put back on the queue. -/
  requeued : List SentJob := []

inductive AckAction
  | send (agentId jobId : String)
  /-- A call of `armAckDeadline` goes on. -/
  | arm (k : ℕ) (now timeoutMs : ℕ)
  | onJobAcked (agentId jobId : String)
  | markJobStarted (jobId : String)
  | onJobComplete (agentId jobId : String)
  /-- A timer fires. -/
  | timer (k : ℕ)
  /-- The statement of an expiry runs. -/
  | requeue (k : ℕ)
  /-- A statement that nothing waits for runs, or fails. -/
  | statement (k : ℕ) (fails : Bool)
  /-- Others write. -/
  | setDb (db : Db)

namespace AckState

variable (s : AckState)

def setPending (jobId : String) (entry : Option String) : AckState :=
  { s with pendingAcks := fun id => if id = jobId then entry else s.pendingAcks id }

def setEarly (jobId : String) (agentId : Option String) : AckState :=
  { s with earlyAcks := fun id => if id = jobId then agentId else s.earlyAcks id }

/-- Wait for no acknowledgement of the job any more. -/
def resolvePendingAck (jobId : String) : AckState :=
  let s := s.setEarly jobId none
  match s.pendingAcks jobId with
  | none => s
  | some _ => { s.setPending jobId none with
      timers := s.timers.filter (·.jobId ≠ jobId)
      statements := s.statements ++ [.clearAckDeadline jobId] }

/-- The agent has accepted the job, if it was sent the job. -/
def accept (agentId jobId : String) : AckState :=
  if ⟨agentId, jobId⟩ ∈ s.sent then { s with accepted := s.accepted ++ [jobId] } else s

def onJobAcked (agentId jobId : String) : AckState :=
  match s.pendingAcks jobId with
  | none => s.setEarly jobId (some agentId)
  | some owner => if owner = agentId then s.resolvePendingAck jobId else s

/-- Go on with a call of `armAckDeadline`; an acknowledgement that came before ends it. -/
def armAckDeadline (k : ℕ) (arming : Arming) (deadline : ℕ) : AckState :=
  if s.earlyAcks arming.jobId = some arming.agentId then
    { s.setEarly arming.jobId none with
      armings := s.armings.eraseIdx k
      statements := s.statements ++ [.clearAckDeadline arming.jobId] }
  else
    match arming.point with
    | .start => { s with armings := s.armings.set k { arming with point := .timeout } }
    | .timeout => { s.setPending arming.jobId (some arming.agentId) with
        armings := s.armings.eraseIdx k
        timers := s.timers ++ [arming.toSentJob]
        statements := s.statements ++ [.setAckDeadline arming.jobId deadline arming.agentId] }

/-- The timer of a job fires. -/
def handleAckExpiry (d : SentJob) : AckState :=
  let s := { s with timers := s.timers.filter (·.jobId ≠ d.jobId) }
  if s.pendingAcks d.jobId = some d.agentId then
    { s.setPending d.jobId none with expiries := s.expiries ++ [d] }
  else s

/-- The statement of an expiry. -/
def expiryUpdate (d : SentJob) : DispatchUpdate :=
  JobQueue.requeueIfAwaitingAck s.db d.jobId (if d.agentId = "" then none else some d.agentId)

/-- Put a job back on the queue, unless its row says that it was acknowledged. -/
def requeueIfAwaitingAck (d : SentJob) : AckState :=
  if (s.db.dispatchQueue.returning (s.expiryUpdate d)).isEmpty then s
  else { s with
    db := s.db.update (s.expiryUpdate d)
    requeued := s.requeued ++ [d] }.resolvePendingAck d.jobId

def step : AckAction → Option AckState
  | .send agentId jobId =>
    if s.sent.any (fun d => d.jobId = jobId) then none
    else some { s with
      sent := s.sent ++ [⟨agentId, jobId⟩]
      armings := s.armings ++ [⟨⟨agentId, jobId⟩, .start⟩] }
  | .arm k now timeoutMs => s.armings[k]?.map fun arming => s.armAckDeadline k arming (now + timeoutMs)
  | .onJobAcked agentId jobId => some ((s.onJobAcked agentId jobId).accept agentId jobId)
  | .markJobStarted jobId =>
    match s.sent.find? fun d => d.jobId = jobId with
    | some d => some ((s.resolvePendingAck jobId).accept d.agentId jobId)
    | none => some (s.resolvePendingAck jobId)
  | .onJobComplete _ jobId =>
    let t := s.resolvePendingAck jobId
    some { t with statements := t.statements ++ [.markCompleted jobId] }
  | .timer k => s.timers[k]?.map s.handleAckExpiry
  | .requeue k => s.expiries[k]?.map fun d =>
      { s with expiries := s.expiries.eraseIdx k }.requeueIfAwaitingAck d
  | .statement k fails => s.statements[k]?.map fun statement =>
      { s with
        statements := s.statements.eraseIdx k
        db := if fails then s.db else s.db.update statement.update }
  | .setDb db => some { s with db }

end AckState

open AckState

/-- A coordinator that has sent nothing yet. -/
def ackSystem : System AckState AckAction where
  init := {s | ∃ db, s = { db }}
  step

namespace AckState

variable {s t : AckState} {jobId agentId : String} {d : SentJob}

/-! ## What is kept in memory -/

/-- What is kept of a job is of the agent that it was sent to, and nothing is kept of one that the
agent has accepted. -/
structure Kept (s : AckState) : Prop where
  once : ∀ d ∈ s.sent, ∀ d' ∈ s.sent, d.jobId = d'.jobId → d = d'
  arming : ∀ arming ∈ s.armings, arming.toSentJob ∈ s.sent
  timer : ∀ d ∈ s.timers, s.pendingAcks d.jobId = some d.agentId
  pending : ∀ jobId agentId, s.pendingAcks jobId = some agentId → ⟨agentId, jobId⟩ ∈ s.sent
  accepted : ∀ jobId ∈ s.accepted, s.pendingAcks jobId = none
  expiry : ∀ d ∈ s.expiries, d.jobId ∉ s.accepted

/-- The job that the agent accepts with the step. -/
def accepts (s : AckState) : AckAction → Option String
  | .onJobAcked agentId jobId => if ⟨agentId, jobId⟩ ∈ s.sent then some jobId else none
  | .markJobStarted jobId => if s.sent.any fun d => d.jobId = jobId then some jobId else none
  | _ => none

/-- The call of `armAckDeadline` that goes on with the step. -/
def goesOn (s : AckState) : AckAction → Option Arming
  | .arm k _ _ => s.armings[k]?
  | _ => none

/-- Neither does an agent accept a job between the timer and the statement that puts the job
back, nor does a call of `armAckDeadline` go on to wait for an agent that has accepted the job,
without its acknowledgement being kept. -/
structure AnsweredInTime (s : AckState) (a : AckAction) : Prop where
  accepts : ∀ jobId ∈ s.accepts a, ∀ d ∈ s.expiries, d.jobId ≠ jobId
  arms : ∀ arming ∈ s.goesOn a, arming.point = .timeout → arming.jobId ∈ s.accepted →
    s.earlyAcks arming.jobId = some arming.agentId

instance (s : AckState) (a : AckAction) : Decidable (s.AnsweredInTime a) :=
  decidable_of_iff ((∀ jobId ∈ s.accepts a, ∀ d ∈ s.expiries, d.jobId ≠ jobId) ∧
      ∀ arming ∈ s.goesOn a, arming.point = .timeout → arming.jobId ∈ s.accepted →
        s.earlyAcks arming.jobId = some arming.agentId)
    ⟨fun h => ⟨h.1, h.2⟩, fun h => ⟨h.accepts, h.arms⟩⟩

theorem Kept.setEarly {early : Option String} (h : s.Kept) : (s.setEarly jobId early).Kept :=
  { h with }

theorem Kept.resolvePendingAck (h : s.Kept) : (s.resolvePendingAck jobId).Kept := by
  rw [AckState.resolvePendingAck]
  simp only
  split
  · exact h.setEarly
  · exact {
      once := h.once
      arming := h.arming
      timer := by
        intro d hd
        obtain ⟨hd, hne⟩ := mem_filter.1 hd
        exact (if_neg (of_decide_eq_true hne)).trans (h.timer d hd)
      pending := by
        intro id agentId hpending
        simp only [setPending] at hpending
        split at hpending
        · cases hpending
        · exact h.pending id agentId hpending
      accepted := by
        intro id hid
        simp only [setPending]
        split
        · rfl
        · exact h.accepted id hid
      expiry := h.expiry }

/-- Nothing is waited for of a job that is resolved. -/
theorem pendingAcks_resolvePendingAck : (s.resolvePendingAck jobId).pendingAcks jobId = none := by
  rw [resolvePendingAck]
  simp only
  split
  · next hnone => exact hnone
  · exact if_pos rfl

theorem sent_resolvePendingAck : (s.resolvePendingAck jobId).sent = s.sent := by
  rw [resolvePendingAck]
  simp only
  split <;> rfl

theorem expiries_resolvePendingAck : (s.resolvePendingAck jobId).expiries = s.expiries := by
  rw [resolvePendingAck]
  simp only
  split <;> rfl

theorem Kept.onJobAcked (h : s.Kept) : (s.onJobAcked agentId jobId).Kept := by
  rw [AckState.onJobAcked]
  split
  · exact h.setEarly
  · split
    · exact h.resolvePendingAck
    · exact h

/-- Nothing is waited for of a job that its agent has acknowledged. -/
theorem Kept.pendingAcks_onJobAcked (h : s.Kept) (hsent : ⟨agentId, jobId⟩ ∈ s.sent) :
    (s.onJobAcked agentId jobId).pendingAcks jobId = none := by
  rw [AckState.onJobAcked]
  split
  · next hnone => exact hnone
  · next owner hpending =>
    -- The job was sent to one agent.
    have howner := h.once _ (h.pending jobId owner hpending) _ hsent rfl
    rw [if_pos (congrArg SentJob.agentId howner)]
    exact pendingAcks_resolvePendingAck

theorem expiries_onJobAcked : (s.onJobAcked agentId jobId).expiries = s.expiries := by
  rw [onJobAcked]
  split
  · rfl
  · split
    · exact expiries_resolvePendingAck
    · rfl

theorem sent_onJobAcked : (s.onJobAcked agentId jobId).sent = s.sent := by
  rw [onJobAcked]
  split
  · rfl
  · split
    · exact sent_resolvePendingAck
    · rfl

theorem Kept.accept (h : s.Kept) (hpending : ⟨agentId, jobId⟩ ∈ s.sent → s.pendingAcks jobId = none)
    (hexpiry : ⟨agentId, jobId⟩ ∈ s.sent → ∀ d ∈ s.expiries, d.jobId ≠ jobId) :
    (s.accept agentId jobId).Kept := by
  rw [AckState.accept]
  split
  · next hsent =>
    exact { h with
      accepted := by
        intro id hid
        rcases mem_append.1 hid with hid | hid
        · exact h.accepted id hid
        · exact mem_singleton.1 hid ▸ hpending hsent
      expiry := by
        intro d hd hid
        rcases mem_append.1 hid with hid | hid
        · exact h.expiry d hd hid
        · exact hexpiry hsent d hd (mem_singleton.1 hid) }
  · exact h

/-- A call of `armAckDeadline` waits for no agent that has accepted the job. -/
theorem Kept.armAckDeadline {k deadline : ℕ} {arming : Arming} (h : s.Kept)
    (hget : s.armings[k]? = some arming)
    (hearly : arming.point = .timeout → arming.jobId ∈ s.accepted →
      s.earlyAcks arming.jobId = some arming.agentId) : (s.armAckDeadline k arming deadline).Kept := by
  have harming : arming.toSentJob ∈ s.sent := h.arming arming (mem_of_getElem? hget)
  rw [AckState.armAckDeadline]
  split
  · exact { h with arming := fun a ha => h.arming a (mem_of_mem_eraseIdx ha) }
  · next hlate =>
    split
    · exact { h with
        arming := by
          intro a ha
          rcases mem_or_eq_of_mem_set ha with ha | rfl
          · exact h.arming a ha
          · exact harming }
    · next hpoint =>
      have hnew : arming.jobId ∉ s.accepted := fun hmem => hlate (hearly hpoint hmem)
      exact {
        once := h.once
        arming := fun a ha => h.arming a (mem_of_mem_eraseIdx ha)
        timer := by
          intro d hd
          simp only [setPending]
          rcases mem_append.1 hd with hd | hd
          · split
            · next heq =>
              have hsame := h.once _ (h.pending _ _ (h.timer d hd)) _ harming heq
              exact congrArg some (congrArg SentJob.agentId hsame).symm
            · exact h.timer d hd
          · obtain rfl := mem_singleton.1 hd
            exact if_pos rfl
        pending := by
          intro id agentId hpending
          simp only [setPending] at hpending
          split at hpending
          · next heq =>
            cases hpending
            subst heq
            exact harming
          · exact h.pending id agentId hpending
        accepted := by
          intro id hid
          have hne : id ≠ arming.jobId := fun heq => hnew (heq ▸ hid)
          exact (if_neg hne).trans (h.accepted id hid)
        expiry := h.expiry }

/-- A timer that fires is one of a job that no agent has accepted. -/
theorem Kept.handleAckExpiry (h : s.Kept) (hd : d ∈ s.timers) : (s.handleAckExpiry d).Kept := by
  have hpending : s.pendingAcks d.jobId = some d.agentId := h.timer d hd
  rw [AckState.handleAckExpiry]
  simp only
  rw [if_pos hpending]
  exact {
    once := h.once
    arming := h.arming
    timer := by
      intro d' hd'
      obtain ⟨hd', hne⟩ := mem_filter.1 hd'
      exact (if_neg (of_decide_eq_true hne)).trans (h.timer d' hd')
    pending := by
      intro id agentId hid
      simp only [setPending] at hid
      split at hid
      · cases hid
      · exact h.pending id agentId hid
    accepted := by
      intro id hid
      simp only [setPending]
      split
      · rfl
      · exact h.accepted id hid
    expiry := by
      intro d' hd' hid
      rcases mem_append.1 hd' with hd' | hd'
      · exact h.expiry d' hd' hid
      · obtain rfl := mem_singleton.1 hd'
        exact some_ne_none _ (hpending.symm.trans (h.accepted _ hid)) }

theorem Kept.requeueIfAwaitingAck (h : s.Kept) : (s.requeueIfAwaitingAck d).Kept := by
  rw [AckState.requeueIfAwaitingAck]
  split
  · exact h
  · have hrequeued : ∀ db requeued, ({ s with db, requeued } : AckState).Kept :=
      fun _ _ => { h with }
    exact (hrequeued _ _).resolvePendingAck

/-! ## Runs -/

theorem Kept.step {a : AckAction} (h : s.Kept) (hok : s.AnsweredInTime a)
    (hstep : s.step a = some t) : t.Kept := by
  cases a with
  | send agentId jobId =>
    rw [AckState.step] at hstep
    split at hstep
    · cases hstep
    · next hnone =>
      cases hstep
      have hnew : ∀ d ∈ s.sent, d.jobId ≠ jobId := fun d hd heq =>
        hnone (List.any_eq_true.2 ⟨d, hd, decide_eq_true heq⟩)
      exact {
        once := by
          intro d hd d' hd' heq
          rcases mem_append.1 hd with hd | hd <;> rcases mem_append.1 hd' with hd' | hd'
          · exact h.once d hd d' hd' heq
          · exact absurd (heq.trans (congrArg SentJob.jobId (mem_singleton.1 hd'))) (hnew d hd)
          · exact absurd (heq.symm.trans (congrArg SentJob.jobId (mem_singleton.1 hd))) (hnew d' hd')
          · rw [mem_singleton.1 hd, mem_singleton.1 hd']
        arming := by
          intro a ha
          rcases mem_append.1 ha with ha | ha
          · exact mem_append_left _ (h.arming a ha)
          · rw [mem_singleton.1 ha]
            exact mem_append_right _ (mem_singleton_self _)
        timer := h.timer
        pending := fun id agentId hpending => mem_append_left _ (h.pending id agentId hpending)
        accepted := h.accepted
        expiry := h.expiry }
  | arm k now timeoutMs =>
    obtain ⟨arming, hget, rfl⟩ := map_eq_some_iff.1 hstep
    exact h.armAckDeadline hget (hok.arms arming hget)
  | onJobAcked agentId jobId =>
    cases hstep
    refine h.onJobAcked.accept (fun hsent => h.pendingAcks_onJobAcked (sent_onJobAcked ▸ hsent))
      fun hsent d hd => ?_
    rw [sent_onJobAcked] at hsent
    exact hok.accepts jobId (if_pos hsent) d (expiries_onJobAcked ▸ hd)
  | markJobStarted jobId =>
    rw [AckState.step] at hstep
    split at hstep
    · next d hfind =>
      cases hstep
      refine h.resolvePendingAck.accept (fun _ => pendingAcks_resolvePendingAck) fun _ d' hd' => ?_
      have hjob : decide (d.jobId = jobId) :=
        find?_some (p := fun d : SentJob => d.jobId = jobId) hfind
      have hany : s.sent.any fun d => d.jobId = jobId :=
        List.any_eq_true.2 ⟨d, mem_of_find?_eq_some hfind, hjob⟩
      exact hok.accepts jobId (if_pos hany) d' (expiries_resolvePendingAck ▸ hd')
    · cases hstep
      exact h.resolvePendingAck
  | onJobComplete agentId jobId =>
    cases hstep
    exact { h.resolvePendingAck with }
  | timer k =>
    obtain ⟨d, hget, rfl⟩ := map_eq_some_iff.1 hstep
    exact h.handleAckExpiry (mem_of_getElem? hget)
  | requeue k =>
    obtain ⟨d, hget, rfl⟩ := map_eq_some_iff.1 hstep
    have hdone : ({ s with expiries := s.expiries.eraseIdx k } : AckState).Kept :=
      { h with expiry := fun d hd => h.expiry d (mem_of_mem_eraseIdx hd) }
    exact hdone.requeueIfAwaitingAck
  | statement k fails =>
    obtain ⟨statement, hget, rfl⟩ := map_eq_some_iff.1 hstep
    exact { h with }
  | setDb db =>
    cases hstep
    exact { h with }

/-! What is put back is an expiry. -/

theorem requeued_resolvePendingAck : (s.resolvePendingAck jobId).requeued = s.requeued := by
  rw [resolvePendingAck]
  simp only
  split <;> rfl

theorem requeued_accept : (s.accept agentId jobId).requeued = s.requeued := by
  rw [accept]
  split <;> rfl

theorem mem_expiries_of_requeued {a : AckAction} (hstep : s.step a = some t)
    (hrequeued : t.requeued = s.requeued ++ [d]) : d ∈ s.expiries := by
  have hne : s.requeued ≠ s.requeued ++ [d] := by simp
  cases a with
  | send =>
    rw [step] at hstep
    split at hstep <;> cases hstep
    exact absurd hrequeued hne
  | arm k now timeoutMs =>
    obtain ⟨arming, -, rfl⟩ := map_eq_some_iff.1 hstep
    rw [armAckDeadline] at hrequeued
    split at hrequeued
    · exact absurd hrequeued hne
    · split at hrequeued <;> exact absurd hrequeued hne
  | onJobAcked =>
    cases hstep
    rw [requeued_accept, onJobAcked] at hrequeued
    split at hrequeued
    · exact absurd hrequeued hne
    · split at hrequeued
      · exact absurd (requeued_resolvePendingAck.symm.trans hrequeued) hne
      · exact absurd hrequeued hne
  | markJobStarted =>
    rw [step] at hstep
    split at hstep <;> cases hstep
    · exact absurd (requeued_resolvePendingAck.symm.trans (requeued_accept.symm.trans hrequeued)) hne
    · exact absurd (requeued_resolvePendingAck.symm.trans hrequeued) hne
  | onJobComplete =>
    cases hstep
    exact absurd (requeued_resolvePendingAck.symm.trans hrequeued) hne
  | timer =>
    obtain ⟨d', -, rfl⟩ := map_eq_some_iff.1 hstep
    rw [handleAckExpiry] at hrequeued
    simp only at hrequeued
    split at hrequeued <;> exact absurd hrequeued hne
  | requeue k =>
    obtain ⟨d', hget, rfl⟩ := map_eq_some_iff.1 hstep
    rw [requeueIfAwaitingAck] at hrequeued
    split at hrequeued
    · exact absurd hrequeued hne
    · rw [requeued_resolvePendingAck] at hrequeued
      have hlast := append_cancel_left hrequeued
      cases hlast
      exact mem_of_getElem? hget
  | statement =>
    obtain ⟨statement, -, rfl⟩ := map_eq_some_iff.1 hstep
    exact absurd hrequeued hne
  | setDb =>
    cases hstep
    exact absurd hrequeued hne

end AckState

section Runs

variable {s t : AckState} {a : AckAction} {d : SentJob}

/-- No job is put back for want of an acknowledgement if its agent has accepted it. -/
theorem not_accepted_of_requeued (hreach : ackSystem.Reachable AnsweredInTime s)
    (hstep : ackSystem.step s a = some t) (hrequeued : t.requeued = s.requeued ++ [d]) :
    d.jobId ∉ s.accepted := by
  have hkept : s.Kept := by
    refine hreach.invariant (fun _ hinit => ?_) fun _ _ _ h hok hstep => h.step hok hstep
    obtain ⟨db, rfl⟩ := hinit
    exact {
      once := nofun
      arming := nofun
      timer := nofun
      pending := fun _ _ hpending => absurd hpending.symm (some_ne_none _)
      accepted := nofun
      expiry := nofun }
  exact hkept.expiry d (mem_expiries_of_requeued hstep hrequeued)

/-- A queue with one job, which is dispatched. -/
def dispatchedDb : Db where
  dispatchQueue := .singleton _
    { id := "job-1", runId := "run-1", jobName := "test", status := .dispatched, createdAt := 0 }
  executionRuns := []
  clusterInstances := []
  now := 0

/-- A job that is sent, and whose timer fires. -/
def awaitAck : List AckAction :=
  [.send "agent-1" "job-1", .arm 0 0 100, .arm 0 0 100, .statement 0 false, .timer 0]

/-- A job that its agent does not acknowledge is put back. -/
theorem not_accepted_of_requeued_silent : ∃ s t : AckState, ackSystem.Reachable AnsweredInTime s ∧
    ackSystem.step s (.requeue 0) = some t ∧ t.requeued = s.requeued ++ [⟨"agent-1", "job-1"⟩] ∧
    "job-1" ∉ s.accepted := by
  obtain ⟨s, hpath, hs⟩ : ∃ s, ackSystem.Path AnsweredInTime { db := dispatchedDb } s ∧
      decide ((ackSystem.step s (.requeue 0)).any fun t : AckState =>
        t.requeued = s.requeued ++ [⟨"agent-1", "job-1"⟩]) :=
    System.exists_path_of_run (fun _ _ => of_decide_eq_true) awaitAck (by decide)
  obtain ⟨t, hstep, hsent⟩ := (Option.any_eq_true _ _).1 (of_decide_eq_true hs)
  have hreach : ackSystem.Reachable AnsweredInTime s := ⟨_, ⟨_, rfl⟩, hpath⟩
  exact ⟨s, t, hreach, hstep, of_decide_eq_true hsent,
    not_accepted_of_requeued hreach hstep (of_decide_eq_true hsent)⟩

/-- An acknowledgement that comes early is dropped with the report that the job runs: the job is put
back while its agent runs it. -/
theorem exists_accepted_requeued : ∃ s a t d, ackSystem.Reachable System.anyStep s ∧
    ackSystem.step s a = some t ∧ t.requeued = s.requeued ++ [d] ∧ d.jobId ∈ s.accepted := by
  obtain ⟨s, hpath, hs⟩ := ackSystem.exists_path { db := dispatchedDb }
      (fun s => "job-1" ∈ s.accepted ∧ (ackSystem.step s (.requeue 0)).any fun t : AckState =>
        t.requeued = s.requeued
        ++ [⟨"agent-1", "job-1"⟩]) System.anyStep_of_true
          [.send "agent-1" "job-1", .onJobAcked "agent-1" "job-1",
      .markJobStarted "job-1", .arm 0 0 100, .arm 0 0 100, .statement 0 false, .timer 0] (by decide)
  obtain ⟨haccepted, hany⟩ := hs
  obtain ⟨t, hstep, hsent⟩ := (Option.any_eq_true _ _).1 hany
  exact ⟨s, _, t, _, ⟨_, ⟨_, rfl⟩, hpath⟩, hstep, of_decide_eq_true hsent, haccepted⟩

end Runs

end Kici
