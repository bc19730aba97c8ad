import Kici.Foundation.System
import Mathlib.Data.List.Nodup

/-!
# Jobs that are rerouted to peers

A coordinator that has no agent for a job asks its peers, one after the other, to run it
(`routeJobs`, `attemptPeerRoute`). A peer takes the job if it can dispatch it
(`handleIncomingReroute`), and answers; a peer that does not answer in time is taken not to have
the job. Meanwhile the job may be in the queue here (`queued`), where an agent may claim it; the
entry is cancelled if a peer has taken the job (`cancelQueuedJob`).

The job that a peer has taken is tracked (`trackReroutedJob`). If the peer does not begin it in
time, or reports that it cannot (`onPeerScalerEvent`), the job is taken from it: the coordinator
asks whether the job was started (`checks`), sends the peer a cancel, and tries the peers that are
left, and itself last (`handleRerouteSpawnTimeout`, `tryLocalRedispatch`).

Messages arrive in any order, or are lost. Each step of `RerouteState.step` is what happens between
two suspensions.

A job may get two executors, as an answer that is late or lost counts as a refusal, as the entry in
the queue may be claimed while a peer takes the job, as a cancel may be late or lost, and as a job
may be taken from its peer twice at the same time. Where none of this happens (`OneAtATime`), each
job has one (`eq_of_held`).
-/

namespace Kici

open List Option

/-- The coordinator, and the databases in which the orchestrators keep their queues; a worker has
its own. -/
structure RerouteCluster where
  instanceId : String
  database : String → String

/-- An orchestrator that has a job. -/
structure JobHolder where
  instanceId : String
  jobId : String
  deriving DecidableEq

/-- The row of a job in a database. -/
structure QueuedRow where
  database : String
  jobId : String
  deriving DecidableEq

/-- A job that a peer is asked to run. -/
structure JobReroute where
  messageId : ℕ
  jobId : String
  peerId : String
  triedConnections : List String
  deriving DecidableEq

/-- The answer to a message. -/
structure JobRerouteAck where
  message : JobReroute
  accepted : Bool
  deriving DecidableEq

/-- What calls `attemptPeerRoute`. -/
inductive RerouteCaller
  /-- With an entry in the queue here, or without. -/
  | routeJobs (localFallback : Bool)
  | handleRerouteSpawnTimeout
  deriving DecidableEq

/-- Where a call of `attemptPeerRoute` is. -/
inductive ReroutePoint
  | nextPeer
  /-- It waits for the answer of a peer. -/
  | answer (peerId : String) (messageId : ℕ)
  /-- It is about to track the job that the peer has taken. -/
  | track (peerId : String)
  deriving DecidableEq

/-- A call of `attemptPeerRoute`, with the peers that are left. -/
structure RerouteCall where
  jobId : String
  caller : RerouteCaller
  triedConnections : List String
  sortedPeers : List String
  point : ReroutePoint
  deriving DecidableEq

namespace RerouteCall

variable (call : RerouteCall)

/-- The peer that may have taken the job. -/
def peer? : Option String :=
  match call.point with
  | .nextPeer => none
  | .answer peerId _ => some peerId
  | .track peerId => some peerId

/-- The message whose answer is waited for. -/
def message? : Option JobReroute :=
  match call.point with
  | .answer peerId messageId => some ⟨messageId, call.jobId, peerId, call.triedConnections⟩
  | .nextPeer => none
  | .track _ => none

/-- The call after the answer of a peer. -/
def answered (peerId : String) (accepted : Bool) : RerouteCall :=
  { call with point := if accepted then .track peerId else .nextPeer }

end RerouteCall

/-- A job that a peer has taken. -/
structure TrackedReroute where
  id : ℕ
  jobId : String
  peerId : String
  triedConnections : List String
  peerStarted : Bool := false
  windowTimer : Bool := true
  maxAttempts : ℕ
  spawnFailures : ℕ := 0
  deriving DecidableEq

/-- What enters a job in the queue here. -/
inductive FallbackSource
  | routeJobs
  | tryLocalRedispatch
  deriving DecidableEq

/-- A job in the queue here that no agent has claimed. -/
structure FallbackEntry where
  jobId : String
  source : FallbackSource
  deriving DecidableEq

/-- What the dispatcher does with a job. -/
inductive LocalDispatch
  /-- An agent has it, or is to have it. -/
  | dispatched
  | queuedNoBackend
  | rejected
  deriving DecidableEq

structure RerouteState where
  calls : List RerouteCall := []
  /-- The jobs of a call of `routeJobs` that stay here. -/
  localJobs : List String := []
  queued : List FallbackEntry := []
  /-- The entries that are about to be cancelled. -/
  cancelling : List FallbackEntry := []
  reroutedJobs : String → Option TrackedReroute := fun _ => none
  /-- The calls of `handleRerouteSpawnTimeout` that read whether the job was started. -/
  checks : List TrackedReroute := []
  /-- Those that read whether it is over. -/
  reaps : List TrackedReroute := []
  reroutes : List JobReroute := []
  acks : List JobRerouteAck := []
  /-- The cancels on their way to the peers. -/
  cancels : List JobHolder := []
  rows : List QueuedRow := []
  /-- Who has accepted a job, and has neither cancelled it nor given it back. -/
  held : List JobHolder := []
  nextId : ℕ := 0

inductive RerouteAction
  /-- A new job is dispatched here, or else to the peers that have capacity. -/
  | routeJobs (jobId : String) (result : LocalDispatch) (sortedPeers : List String)
  /-- The next peer is sent the job, unless it is in back-off or there is no link to it. -/
  | nextPeer (call : RerouteCall) (sent : Bool)
  /-- A peer dispatches a job, unless it cannot. -/
  | handleIncomingReroute (message : JobReroute) (accepts : Bool)
  | onAck (ack : JobRerouteAck)
  | ackTimeout (call : RerouteCall)
  /-- The job is tracked, unless the jobs of its run have been forgotten meanwhile. -/
  | trackReroutedJob (call : RerouteCall) (kept : Bool) (maxAttempts : ℕ)
  /-- No peer has taken the job. -/
  | noPeerLeft (call : RerouteCall) (result : LocalDispatch)
  | cancelQueuedJob (entry : FallbackEntry)
  /-- An agent claims a job of the queue here. -/
  | claimQueuedJob (entry : FallbackEntry)
  | onPeerJobProgress (jobId peerId : String) (terminal : Bool)
  | onPeerScalerEvent (jobId peerId : String) (final : Option Bool)
  | onPeerJobComplete (jobId : String)
  /-- The timer of a job fires. -/
  | windowTimer (jobId : String)
  /-- Whether the job was started; if not, it is taken from its peer. -/
  | hasJobStarted (tracked : TrackedReroute) (started sent : Bool) (sortedPeers : List String)
  | isJobTerminal (tracked : TrackedReroute) (terminal : Bool)
  /-- A peer cancels a job, if it finds the job and reaches its agent. -/
  | deliverPeerJobCancel (holder : JobHolder) (delivered : Bool)
  /-- A peer gives a job back. -/
  | giveBack (holder : JobHolder)
  | loseReroute (message : JobReroute)
  | loseAck (ack : JobRerouteAck)
  | loseCancel (holder : JobHolder)

/-- What is tracked of the job that a peer has taken. -/
def RerouteCall.tracked (call : RerouteCall) (id : ℕ) (peerId : String) (maxAttempts : ℕ) :
    TrackedReroute where
  id
  jobId := call.jobId
  peerId
  triedConnections := call.triedConnections
  maxAttempts

namespace RerouteState

variable (c : RerouteCluster) (s : RerouteState)

/-- Whether nothing is known of the job. -/
def isNew (jobId : String) : Bool :=
  s.calls.all (·.jobId ≠ jobId) ∧ jobId ∉ s.localJobs ∧ s.queued.all (·.jobId ≠ jobId) ∧
    (s.reroutedJobs jobId).isNone ∧ s.held.all (·.jobId ≠ jobId)

def setTracked (jobId : String) (tracked : Option TrackedReroute) : RerouteState :=
  { s with reroutedJobs := fun id => if id = jobId then tracked else s.reroutedJobs id }

def track (tracked : TrackedReroute) : RerouteState :=
  { s.setTracked tracked.jobId (some tracked) with nextId := s.nextId + 1 }

/-- Write to what is tracked of a job, if it is still tracked. -/
def modifyTracked (tracked : TrackedReroute) (f : TrackedReroute → TrackedReroute) : RerouteState :=
  match s.reroutedJobs tracked.jobId with
  | some current => if current.id = tracked.id then s.setTracked tracked.jobId (some (f current)) else s
  | none => s

/-- A call goes on. -/
def setCall (call call' : RerouteCall) : RerouteState :=
  { s with calls := call' :: s.calls.erase call }

def endCall (call : RerouteCall) : RerouteState := { s with calls := s.calls.erase call }

def addCall (jobId : String) (caller : RerouteCaller) (triedConnections sortedPeers : List String) :
    RerouteState :=
  { s with calls := ⟨jobId, caller, triedConnections, sortedPeers, .nextPeer⟩ :: s.calls }

def hold (instanceId jobId : String) : RerouteState :=
  { s with held := ⟨instanceId, jobId⟩ :: s.held }

def release (holder : JobHolder) : RerouteState :=
  { s with held := s.held.filter (· ≠ holder) }

/-! ## Calls -/

def routeJobs (jobId : String) (result : LocalDispatch) (sortedPeers : List String) : RerouteState :=
  match result with
  | .dispatched => { s.hold c.instanceId jobId with localJobs := jobId :: s.localJobs }
  | .queuedNoBackend =>
    { s with queued := ⟨jobId, .routeJobs⟩ :: s.queued }.addCall jobId (.routeJobs true)
      [c.instanceId] sortedPeers
  | .rejected => s.addCall jobId (.routeJobs false) [c.instanceId] sortedPeers

/-- Send a job to a peer. -/
def sendReroute (call : RerouteCall) (peerId : String) (rest : List String) : RerouteState :=
  { s.setCall call { call with sortedPeers := rest, point := .answer peerId s.nextId } with
    reroutes := ⟨s.nextId, call.jobId, peerId, call.triedConnections⟩ :: s.reroutes
    nextId := s.nextId + 1 }

def handleIncomingReroute (message : JobReroute) (accepts : Bool) : RerouteState :=
  let s := { s with reroutes := s.reroutes.erase message }
  if message.peerId ∈ message.triedConnections ∨ accepts = false then
    { s with acks := ⟨message, false⟩ :: s.acks }
  else if ⟨c.database message.peerId, message.jobId⟩ ∈ s.rows then
    { s with acks := ⟨message, true⟩ :: s.acks }
  else
    { s.hold message.peerId message.jobId with
      rows := ⟨c.database message.peerId, message.jobId⟩ :: s.rows
      acks := ⟨message, true⟩ :: s.acks }

/-- An answer counts if it is still waited for. -/
def onAck (ack : JobRerouteAck) : RerouteState :=
  let s := { s with acks := s.acks.erase ack }
  match s.calls.find? fun call => call.message? = some ack.message with
  | some call => s.setCall call (call.answered ack.message.peerId ack.accepted)
  | none => s

def trackReroutedJob (call : RerouteCall) (peerId : String) (kept : Bool) (maxAttempts : ℕ) :
    RerouteState :=
  let s := s.endCall call
  let s := if kept then s.track (call.tracked s.nextId peerId maxAttempts) else s
  if call.caller = .routeJobs true then
    { s with cancelling := ⟨call.jobId, .routeJobs⟩ :: s.cancelling } else s

/-- Dispatch a job here that no peer has taken. -/
def tryLocalRedispatch (jobId : String) (result : LocalDispatch) : RerouteState :=
  if ⟨c.database c.instanceId, jobId⟩ ∈ s.rows then s
  else
    match result with
    | .dispatched => { s.hold c.instanceId jobId with
      rows := ⟨c.database c.instanceId, jobId⟩ :: s.rows }
    | .queuedNoBackend => { s with
        rows := ⟨c.database c.instanceId, jobId⟩ :: s.rows
        queued := ⟨jobId, .tryLocalRedispatch⟩ :: s.queued
        cancelling := ⟨jobId, .tryLocalRedispatch⟩ :: s.cancelling }
    | .rejected => s

def noPeerLeft (call : RerouteCall) (result : LocalDispatch) : RerouteState :=
  match call.caller with
  | .routeJobs true => { s.endCall call with localJobs := call.jobId :: s.localJobs }
  | .routeJobs false => s.endCall call
  | .handleRerouteSpawnTimeout => (s.endCall call).tryLocalRedispatch c call.jobId result

/-! ## Jobs that a peer has taken -/

/-- The peer runs the job: wait until it is over. -/
def reapOrDeferRerouteTracking (tracked : TrackedReroute) : RerouteState :=
  { s.modifyTracked tracked ({ · with windowTimer := false }) with reaps := tracked :: s.reaps }

def handleRerouteSpawnTimeout (jobId : String) : RerouteState :=
  match s.reroutedJobs jobId with
  | none => s
  | some tracked =>
    if tracked.peerStarted then s.reapOrDeferRerouteTracking tracked
    else { s with checks := tracked :: s.checks }

/-- Take a job from its peer. -/
def redispatch (tracked : TrackedReroute) (sent : Bool) (sortedPeers : List String) : RerouteState :=
  let s := s.setTracked tracked.jobId none
  let s := if sent then { s with cancels := ⟨tracked.peerId, tracked.jobId⟩ :: s.cancels } else s
  s.addCall tracked.jobId .handleRerouteSpawnTimeout (tracked.triedConnections ++ [tracked.peerId])
    sortedPeers

def hasJobStarted (tracked : TrackedReroute) (started sent : Bool) (sortedPeers : List String) :
    RerouteState :=
  let s := { s with checks := s.checks.erase tracked }
  if started then (s.modifyTracked tracked
    ({ · with peerStarted := true })).reapOrDeferRerouteTracking tracked
  else s.redispatch tracked sent sortedPeers

def isJobTerminal (tracked : TrackedReroute) (terminal : Bool) : RerouteState :=
  let s := { s with reaps := s.reaps.erase tracked }
  if terminal then s.setTracked tracked.jobId none
  else s.modifyTracked tracked ({ · with windowTimer := true })

/-- A peer reports on a job; the end of a job that was taken from it does not count. -/
def onPeerJobProgress (jobId peerId : String) (terminal : Bool) : RerouteState :=
  match s.reroutedJobs jobId with
  | none => s
  | some tracked =>
    if tracked.peerId ≠ peerId then s
    else if terminal then s.setTracked jobId none
    else s.modifyTracked tracked ({ · with windowTimer := false })

/-- A peer has failed to start an agent; it has given the job back (`final`), tries again, or
does not say. -/
def onPeerScalerEvent (jobId peerId : String) (final : Option Bool) : RerouteState :=
  match s.reroutedJobs jobId, final with
  | none, _ => s
  | _, none => s
  | some tracked, some final =>
    if tracked.windowTimer = false ∨ tracked.peerId ≠ peerId then s
    else if final then s.handleRerouteSpawnTimeout jobId
    else
      let s := s.modifyTracked tracked fun t => { t with spawnFailures := t.spawnFailures + 1 }
      if tracked.spawnFailures + 1 < tracked.maxAttempts then s else s.handleRerouteSpawnTimeout jobId

def step : RerouteAction → Option RerouteState
  | .routeJobs jobId result sortedPeers =>
    if s.isNew jobId then some (s.routeJobs c jobId result sortedPeers) else none
  | .nextPeer call sent =>
    if call ∈ s.calls ∧ call.point = .nextPeer then
      match call.sortedPeers with
      | [] => none
      | peerId :: rest =>
        some (if sent ∧ peerId ∉ call.triedConnections then s.sendReroute call peerId rest
          else s.setCall call { call with sortedPeers := rest })
    else none
  | .handleIncomingReroute message accepts =>
    if message ∈ s.reroutes then some (s.handleIncomingReroute c message accepts) else none
  | .onAck ack => if ack ∈ s.acks then some (s.onAck ack) else none
  | .ackTimeout call =>
    match call.point with
    | .answer peerId _ =>
      if call ∈ s.calls then some (s.setCall call (call.answered peerId false)) else none
    | _ => none
  | .trackReroutedJob call kept maxAttempts =>
    match call.point with
    | .track peerId =>
      if call ∈ s.calls then some (s.trackReroutedJob call peerId kept maxAttempts) else none
    | _ => none
  | .noPeerLeft call result =>
    if call ∈ s.calls ∧ call.point = .nextPeer ∧
      call.sortedPeers = [] then some (s.noPeerLeft c call result)
    else none
  | .cancelQueuedJob entry =>
    if entry ∈ s.cancelling then
      some { s with cancelling := s.cancelling.erase entry, queued := s.queued.erase entry }
    else none
  | .claimQueuedJob entry =>
    if entry ∈ s.queued then some { s.hold c.instanceId entry.jobId with queued := s.queued.erase entry }
    else none
  | .onPeerJobProgress jobId peerId terminal => some (s.onPeerJobProgress jobId peerId terminal)
  | .onPeerScalerEvent jobId peerId final => some (s.onPeerScalerEvent jobId peerId final)
  | .onPeerJobComplete jobId => some (s.setTracked jobId none)
  | .windowTimer jobId => some (s.handleRerouteSpawnTimeout jobId)
  | .hasJobStarted tracked started sent sortedPeers =>
    if tracked ∈ s.checks then some (s.hasJobStarted tracked started sent sortedPeers) else none
  | .isJobTerminal tracked terminal =>
    if tracked ∈ s.reaps then some (s.isJobTerminal tracked terminal) else none
  | .deliverPeerJobCancel holder delivered =>
    if holder ∈ s.cancels then
      let s := { s with cancels := s.cancels.erase holder }
      some (if delivered then s.release holder else s)
    else none
  | .giveBack holder => some (s.release holder)
  | .loseReroute message => some { s with reroutes := s.reroutes.erase message }
  | .loseAck ack => some { s with acks := s.acks.erase ack }
  | .loseCancel holder => some { s with cancels := s.cancels.erase holder }

end RerouteState

open RerouteState

/-- A coordinator that has routed no job yet. -/
def rerouteSystem (c : RerouteCluster) : System RerouteState RerouteAction where
  init := {{}}
  step := step c

open RerouteCall

variable {entry : FallbackEntry}

namespace RerouteState

variable {call : RerouteCall}

/-- Whether a peer that is sent a job gets it: it is none that it was asked for before, or has a row
of. -/
def takesUp (c : RerouteCluster) (s : RerouteState) (message : JobReroute) (accepts : Bool) : Bool :=
  message.peerId ∉ message.triedConnections ∧ accepts ∧
    ⟨c.database message.peerId, message.jobId⟩ ∉ s.rows

/-- Whether a cancel of the job is on its way. -/
def cancelled (s : RerouteState) (jobId : String) : Bool := s.cancels.any (·.jobId = jobId)

/-- Each job is taken by one orchestrator at a time: a peer that does not answer in time does not
have the job, nor is it to get it; an agent claims a job of the queue here only after the peers
have refused it; a job is taken from its peer once, the cancel gets there, and it does so before
another orchestrator takes the job. -/
def OneAtATime (c : RerouteCluster) (s : RerouteState) : RerouteAction → Prop
  | .ackTimeout call => ∀ message ∈ call.message?,
      message ∉ s.reroutes ∧ ⟨message.peerId, call.jobId⟩ ∉ s.held
  | .handleIncomingReroute message accepts =>
    s.takesUp c message accepts → s.cancelled message.jobId = false
  | .noPeerLeft call result => result = .dispatched → s.cancelled call.jobId = false
  | .claimQueuedJob entry =>
    (entry.source = .routeJobs → entry.jobId ∈ s.localJobs) ∧ s.cancelled entry.jobId = false
  | .hasJobStarted tracked started sent _ => started = false →
      ((s.reroutedJobs tracked.jobId).any (·.id = tracked.id)) ∧
        (sent = false → ⟨tracked.peerId, tracked.jobId⟩ ∉ s.held)
  | .deliverPeerJobCancel holder delivered => delivered = false → holder ∉ s.held
  | .loseCancel holder => holder ∉ s.held
  | _ => True

instance (c : RerouteCluster) (s : RerouteState) : (a : RerouteAction) → Decidable (s.OneAtATime c a)
  | .ackTimeout call => inferInstanceAs (Decidable (∀ message ∈ call.message?,
      message ∉ s.reroutes ∧ ⟨message.peerId, call.jobId⟩ ∉ s.held))
  | .handleIncomingReroute message accepts =>
    inferInstanceAs (Decidable (s.takesUp c message accepts → s.cancelled message.jobId = false))
  | .noPeerLeft call result =>
    inferInstanceAs (Decidable (result = .dispatched → s.cancelled call.jobId = false))
  | .claimQueuedJob entry => inferInstanceAs (Decidable
      ((entry.source = .routeJobs → entry.jobId ∈ s.localJobs) ∧ s.cancelled entry.jobId = false))
  | .hasJobStarted tracked started sent _ => inferInstanceAs (Decidable (started = false →
      ((s.reroutedJobs tracked.jobId).any (·.id = tracked.id)) ∧
        (sent = false → ⟨tracked.peerId, tracked.jobId⟩ ∉ s.held)))
  | .deliverPeerJobCancel holder delivered =>
    inferInstanceAs (Decidable (delivered = false → holder ∉ s.held))
  | .loseCancel holder => inferInstanceAs (Decidable (holder ∉ s.held))
  | .routeJobs .. | .nextPeer .. | .onAck .. | .trackReroutedJob .. | .cancelQueuedJob ..
  | .onPeerJobProgress ..
  | .onPeerScalerEvent .. | .onPeerJobComplete .. | .windowTimer .. | .isJobTerminal .. | .giveBack ..
  | .loseReroute .. | .loseAck .. => .isTrue trivial

/-- The orchestrators that have the job are about to cancel it. -/
def Cancelled (s : RerouteState) (jobId : String) : Prop :=
  ∀ h ∈ s.held, h.jobId = jobId → h ∈ s.cancels

/-- No peer is asked to take the job, or to go on. -/
def Settled (s : RerouteState) (jobId : String) : Prop :=
  (∀ call ∈ s.calls, call.jobId ≠ jobId) ∧ s.reroutedJobs jobId = none

/-- A job has one executor. Only one call looks for it at a time, and none for a job that is tracked;
whoever has the job is the peer of the call, or the one that is tracked, or is to cancel it. -/
structure OneExecutor (s : RerouteState) : Prop where
  one : ∀ h ∈ s.held, ∀ h' ∈ s.held, h.jobId = h'.jobId → h = h'
  nodup : (s.calls.map jobId).Nodup
  untracked : ∀ call ∈ s.calls, s.reroutedJobs call.jobId = none
  peer : ∀ call ∈ s.calls, ∀ h ∈ s.held, h.jobId = call.jobId → call.peer? = some h.instanceId ∨
    h ∈ s.cancels
  tracked : ∀ jobId, ∀ t ∈ s.reroutedJobs jobId, t.jobId = jobId ∧ t.id < s.nextId ∧
    ∀ h ∈ s.held, h.jobId = jobId → h.instanceId = t.peerId ∨ h ∈ s.cancels
  check : ∀ x ∈ s.checks, x.id < s.nextId ∧ ∀ t ∈ s.reroutedJobs x.jobId, t.id = x.id →
    t.peerId = x.peerId
  reroute : ∀ m ∈ s.reroutes, (∃ call ∈ s.calls, call.message? = some m) ∧ s.Cancelled m.jobId
  once : s.reroutes.Nodup
  ack : ∀ a ∈ s.acks, a.message ∉ s.reroutes ∧ a.message.messageId < s.nextId ∧
    (a.accepted = false → ∀ call ∈ s.calls, call.message? = some a.message → s.Cancelled call.jobId)
  fresh : ∀ call ∈ s.calls, ∀ m ∈ call.message?, m.messageId < s.nextId
  local_settled : ∀ jobId ∈ s.localJobs, s.Settled jobId ∧ ⟨jobId, .tryLocalRedispatch⟩ ∉ s.queued
  local_cancelled : ∀ jobId ∈ s.localJobs, ⟨jobId, .routeJobs⟩ ∈ s.queued → s.Cancelled jobId
  again : ∀ jobId, ⟨jobId, .tryLocalRedispatch⟩ ∈ s.queued → s.Settled jobId ∧ s.Cancelled jobId
  queued : s.queued.Nodup

theorem jobId_of_message? {m : JobReroute} (h : call.message? = some m) :
    call.jobId = m.jobId := by
  rw [message?] at h
  split at h <;> cases h
  rfl

theorem peer?_of_message? {m : JobReroute} (h : call.message? = some m) :
    call.peer? = some m.peerId := by
  rw [message?] at h
  split at h
  · next hpoint =>
    cases h
    rw [peer?, hpoint]
  · cases h
  · cases h

theorem message?_answered {peerId : String} {accepted : Bool} :
    (call.answered peerId accepted).message? = none := by
  cases accepted <;> rfl

namespace OneExecutor

variable {c : RerouteCluster} {s t : RerouteState} {call call' : RerouteCall} {jobId : String}
  {tracked : TrackedReroute} {message : JobReroute} {sortedPeers : List String} {result : LocalDispatch}
  {peerId : String} {ack : JobRerouteAck} {holder : JobHolder}

theorem bump (h : s.OneExecutor) : ({ s with nextId := s.nextId + 1 } : RerouteState).OneExecutor :=
  { h with
    tracked := fun id t ht => (h.tracked id t ht).imp_right (And.imp_left Nat.lt_succ_of_lt)
    check := fun x hx => (h.check x hx).imp_left Nat.lt_succ_of_lt
    ack := fun a ha => (h.ack a ha).imp_right (And.imp_left Nat.lt_succ_of_lt)
    fresh := fun x hx m hm => Nat.lt_succ_of_lt (h.fresh x hx m hm) }

/-- No call looks for an executor of a job but one. -/
theorem call_unique (h : s.OneExecutor) (hcall : call ∈ s.calls) (hcall' : call' ∈ s.calls)
    (heq : call.jobId = call'.jobId) : call = call' :=
  inj_on_of_nodup_map h.nodup hcall hcall' heq

/-! ## What a step does -/

section

variable (h : s.OneExecutor)
include h

/-- Jobs are given up, and cancels arrive whose jobs are. -/
theorem of_held_subset {held cancels : List JobHolder} (hheld : ∀ d ∈ held, d ∈ s.held)
    (hcancels : ∀ d ∈ held, d ∈ s.cancels → d ∈ cancels) :
    ({ s with held, cancels } : RerouteState).OneExecutor := by
  have hcancelled : ∀ jobId, s.Cancelled jobId →
    ({ s with held, cancels } : RerouteState).Cancelled jobId :=
    fun jobId hjob d hd heq => hcancels d hd (hjob d (hheld d hd) heq)
  exact { h with
    one := fun d hd d' hd' => h.one d (hheld d hd) d' (hheld d' hd')
    peer := fun call hcall d hd heq => (h.peer call hcall d (hheld d hd) heq).imp_right (hcancels d hd)
    tracked := by
      intro jobId t ht
      obtain ⟨hjob, hid, hpeer⟩ := h.tracked jobId t ht
      exact ⟨hjob, hid, fun d hd heq => (hpeer d (hheld d hd) heq).imp_right (hcancels d hd)⟩
    reroute := fun m hm => (h.reroute m hm).imp_right (hcancelled _)
    ack := by
      intro a ha
      obtain ⟨hmessage, hid, hrefused⟩ := h.ack a ha
      exact ⟨hmessage, hid, fun hfalse call hcall heq => hcancelled _ (hrefused hfalse call hcall heq)⟩
    local_cancelled := fun jobId hjob hqueued => hcancelled _ (h.local_cancelled jobId hjob hqueued)
    again := fun jobId hqueued => (h.again jobId hqueued).imp_right (hcancelled _) }

theorem release : (s.release holder).OneExecutor :=
  h.of_held_subset (fun _ hd => mem_of_mem_filter hd) fun _ _ hd => hd

/-- An entry of the queue is removed. -/
theorem eraseQueued {cancelling : List FallbackEntry} :
    ({ s with queued := s.queued.erase entry, cancelling } : RerouteState).OneExecutor :=
  { h with
    local_settled := fun jobId hjob =>
      (h.local_settled jobId hjob).imp_right fun hqueued hmem => hqueued (mem_of_mem_erase hmem)
    local_cancelled := fun jobId hjob hqueued => h.local_cancelled jobId hjob (mem_of_mem_erase hqueued)
    again := fun jobId hqueued => h.again jobId (mem_of_mem_erase hqueued)
    queued := h.queued.erase entry }

/-- A message is lost, or received. -/
theorem eraseReroute :
    ({ s with reroutes := s.reroutes.erase message } : RerouteState).OneExecutor :=
  { h with
    reroute := fun m hm => h.reroute m (mem_of_mem_erase hm)
    once := h.once.erase message
    ack := fun a ha => (h.ack a ha).imp_left fun hmessage hmem => hmessage (mem_of_mem_erase hmem) }

theorem eraseAck : ({ s with acks := s.acks.erase ack } : RerouteState).OneExecutor :=
  { h with ack := fun a ha => h.ack a (mem_of_mem_erase ha) }

/-- A message is answered. -/
theorem addAck (hmessage : ack.message ∉ s.reroutes) (hid : ack.message.messageId < s.nextId)
    (hrefused : ack.accepted = false → ∀ call ∈ s.calls, call.message? = some ack.message →
      s.Cancelled call.jobId) :
    ({ s with acks := ack :: s.acks } : RerouteState).OneExecutor :=
  { h with
    ack := by
      intro a ha
      rcases mem_cons.1 ha with rfl | ha
      · exact ⟨hmessage, hid, hrefused⟩
      · exact h.ack a ha }

/-- An orchestrator takes a job that no other one has. -/
theorem hold {instanceId : String} (hfree : ∀ d ∈ s.held, d.jobId ≠ jobId)
    (hcalls : ∀ call ∈ s.calls, call.jobId = jobId → call.peer? = some instanceId ∧
      ∀ a ∈ s.acks, a.accepted = false → call.message? ≠ some a.message)
    (htracked : s.reroutedJobs jobId = none) (hreroutes : ∀ m ∈ s.reroutes, m.jobId ≠ jobId)
    (hlocal : jobId ∈ s.localJobs → ⟨jobId, .routeJobs⟩ ∉ s.queued)
    (hagain : ⟨jobId, .tryLocalRedispatch⟩ ∉ s.queued) : (s.hold instanceId jobId).OneExecutor := by
  have hcancelled : ∀ id, id ≠ jobId → s.Cancelled id → (s.hold instanceId jobId).Cancelled id := by
    intro id hne hid d hd heq
    rcases mem_cons.1 hd with rfl | hd
    · exact absurd heq.symm hne
    · exact hid d hd heq
  exact { h with
    one := by
      intro d hd d' hd' heq
      rcases mem_cons.1 hd with rfl | hd <;> rcases mem_cons.1 hd' with rfl | hd'
      · rfl
      · exact absurd heq.symm (hfree d' hd')
      · exact absurd heq (hfree d hd)
      · exact h.one d hd d' hd' heq
    peer := by
      intro call hcall d hd heq
      rcases mem_cons.1 hd with rfl | hd
      · exact .inl (hcalls call hcall heq.symm).1
      · exact h.peer call hcall d hd heq
    tracked := by
      intro id t ht
      obtain ⟨hjob, hid, hpeer⟩ := h.tracked id t ht
      refine ⟨hjob, hid, fun d hd heq => ?_⟩
      rcases mem_cons.1 hd with rfl | hd
      · obtain rfl : jobId = id := heq
        exact absurd (ht.symm.trans htracked) (some_ne_none t)
      · exact hpeer d hd heq
    reroute := fun m hm => (h.reroute m hm).imp_right (hcancelled _ (hreroutes m hm))
    ack := by
      intro a ha
      obtain ⟨hmessage, hid, hrefused⟩ := h.ack a ha
      refine ⟨hmessage, hid, fun hfalse call hcall hwaits =>
        hcancelled _ (fun heq => ?_) (hrefused hfalse call hcall hwaits)⟩
      exact (hcalls call hcall heq).2 a ha hfalse hwaits
    local_cancelled := by
      intro id hid hqueued
      refine hcancelled id (fun heq => ?_) (h.local_cancelled id hid hqueued)
      subst heq
      exact hlocal hid hqueued
    again := by
      intro id hqueued
      obtain ⟨hsettled, hid⟩ := h.again id hqueued
      refine ⟨hsettled, hcancelled id (fun heq => ?_) hid⟩
      subst heq
      exact hagain hqueued }

end

/-! ## Calls -/

section

variable (h : s.OneExecutor)
include h

theorem mem_setCall (hcall : call ∈ s.calls) {x : RerouteCall}
    (hx : x ∈ (s.setCall call call').calls) : x = call' ∨ x ∈ s.calls ∧ x.jobId ≠ call.jobId := by
  rcases mem_cons.1 hx with rfl | hx
  · exact .inl rfl
  · have hmem := mem_of_mem_erase hx
    refine .inr ⟨hmem, fun heq => ?_⟩
    obtain rfl := h.call_unique hmem hcall heq
    exact (Nodup.of_map _ h.nodup).not_mem_erase hx

theorem nodup_setCall (hcall : call ∈ s.calls) (hjob : call'.jobId = call.jobId) :
    ((s.setCall call call').calls.map RerouteCall.jobId).Nodup := by
  have hperm := ((perm_cons_erase hcall).map jobId).nodup_iff.1 h.nodup
  rw [map_cons] at hperm
  rw [setCall, map_cons, hjob]
  exact hperm

/-- A call goes on with its job. -/
theorem setCall (hcall : call ∈ s.calls) (hjob : call'.jobId = call.jobId)
    (hpeer : ∀ d ∈ s.held, d.jobId = call.jobId → call'.peer? = some d.instanceId ∨ d ∈ s.cancels)
    (hreroute : ∀ m ∈ s.reroutes, call.message? = some m → call'.message? = some m)
    (hack : ∀ a ∈ s.acks, a.accepted = false → call'.message? = some a.message → s.Cancelled call.jobId)
    (hfresh : ∀ m ∈ call'.message?, m.messageId < s.nextId) : (s.setCall call call').OneExecutor := by
  have hmem : ∀ {x}, x ∈ (s.setCall call call').calls → x = call' ∨ x ∈ s.calls ∧ x.jobId ≠ call.jobId :=
    fun hx => h.mem_setCall hcall hx
  have hsettled : ∀ id, s.Settled id → (s.setCall call call').Settled id := by
    intro id hid
    refine ⟨fun x hx => ?_, hid.2⟩
    rcases hmem hx with rfl | ⟨hx, -⟩
    · exact hjob ▸ hid.1 call hcall
    · exact hid.1 x hx
  exact { h with
    nodup := h.nodup_setCall hcall hjob
    untracked := by
      intro x hx
      rcases hmem hx with rfl | ⟨hx, -⟩
      · exact hjob ▸ h.untracked call hcall
      · exact h.untracked x hx
    peer := by
      intro x hx d hd heq
      rcases hmem hx with rfl | ⟨hx, -⟩
      · exact hpeer d hd (heq.trans hjob)
      · exact h.peer x hx d hd heq
    reroute := by
      intro m hm
      obtain ⟨⟨x, hx, hwaits⟩, hcancelled⟩ := h.reroute m hm
      refine ⟨?_, hcancelled⟩
      by_cases heq : x = call
      · subst heq
        exact ⟨call', mem_cons_self, hreroute m hm hwaits⟩
      · exact ⟨x, mem_cons_of_mem _ ((mem_erase_of_ne heq).2 hx), hwaits⟩
    ack := by
      intro a ha
      obtain ⟨hmessage, hid, hrefused⟩ := h.ack a ha
      refine ⟨hmessage, hid, fun hfalse x hx hwaits => ?_⟩
      rcases hmem hx with rfl | ⟨hx, -⟩
      · exact hjob ▸ hack a ha hfalse hwaits
      · exact hrefused hfalse x hx hwaits
    fresh := by
      intro x hx
      rcases hmem hx with rfl | ⟨hx, -⟩
      · exact hfresh
      · exact h.fresh x hx
    local_settled := fun id hid => (h.local_settled id hid).imp_left (hsettled id)
    again := fun id hqueued => (h.again id hqueued).imp_left (hsettled id) }

/-- A call ends. -/
theorem endCall (hmessage : call.message? = none) :
    (s.endCall call).OneExecutor := by
  have hmem : ∀ {x}, x ∈ (s.endCall call).calls → x ∈ s.calls := mem_of_mem_erase
  have hsettled : ∀ id, s.Settled id → (s.endCall call).Settled id :=
    fun id hid => ⟨fun x hx => hid.1 x (hmem hx), hid.2⟩
  exact { h with
    nodup := h.nodup.sublist ((erase_sublist ..).map _)
    untracked := fun x hx => h.untracked x (hmem hx)
    peer := fun x hx => h.peer x (hmem hx)
    reroute := by
      intro m hm
      obtain ⟨⟨x, hx, hwaits⟩, hcancelled⟩ := h.reroute m hm
      refine ⟨⟨x, (mem_erase_of_ne fun heq => ?_).2 hx, hwaits⟩, hcancelled⟩
      rw [heq, hmessage] at hwaits
      cases hwaits
    ack := by
      intro a ha
      obtain ⟨hfirst, hid, hrefused⟩ := h.ack a ha
      exact ⟨hfirst, hid, fun hfalse x hx => hrefused hfalse x (hmem hx)⟩
    fresh := fun x hx => h.fresh x (hmem hx)
    local_settled := fun id hid => (h.local_settled id hid).imp_left (hsettled id)
    again := fun id hqueued => (h.again id hqueued).imp_left (hsettled id) }

/-- No call looks for an executor of the job any more. -/
theorem settled_endCall (hcall : call ∈ s.calls) : (s.endCall call).Settled call.jobId := by
  refine ⟨fun x hx heq => ?_, h.untracked call hcall⟩
  obtain rfl := h.call_unique (mem_of_mem_erase hx) hcall heq
  exact (Nodup.of_map _ h.nodup).not_mem_erase hx

/-- A call begins to look for an executor of a job. -/
theorem addCall {caller : RerouteCaller} {triedConnections sortedPeers : List String}
    (hsettled : s.Settled jobId) (hcancelled : s.Cancelled jobId) (hlocal : jobId ∉ s.localJobs)
    (hagain : ⟨jobId, .tryLocalRedispatch⟩ ∉ s.queued) :
    (s.addCall jobId caller triedConnections sortedPeers).OneExecutor := by
  have hother : ∀ id, id ≠ jobId → s.Settled id →
    (s.addCall jobId caller triedConnections sortedPeers).Settled id := by
    intro id hne hid
    refine ⟨fun x hx => ?_, hid.2⟩
    rcases mem_cons.1 hx with rfl | hx
    · exact hne.symm
    · exact hid.1 x hx
  exact { h with
    nodup := by
      refine nodup_cons.2 ⟨fun hmem => ?_, h.nodup⟩
      obtain ⟨x, hx, heq⟩ := mem_map.1 hmem
      exact hsettled.1 x hx heq
    untracked := by
      intro x hx
      rcases mem_cons.1 hx with rfl | hx
      · exact hsettled.2
      · exact h.untracked x hx
    peer := by
      intro x hx d hd heq
      rcases mem_cons.1 hx with rfl | hx
      · exact .inr (hcancelled d hd heq)
      · exact h.peer x hx d hd heq
    reroute := by
      intro m hm
      obtain ⟨⟨x, hx, hwaits⟩, hjob⟩ := h.reroute m hm
      exact ⟨⟨x, mem_cons_of_mem _ hx, hwaits⟩, hjob⟩
    ack := by
      intro a ha
      obtain ⟨hmessage, hid, hrefused⟩ := h.ack a ha
      refine ⟨hmessage, hid, fun hfalse x hx hwaits => ?_⟩
      rcases mem_cons.1 hx with rfl | hx
      · cases hwaits
      · exact hrefused hfalse x hx hwaits
    fresh := by
      intro x hx
      rcases mem_cons.1 hx with rfl | hx
      · exact fun m hm => absurd hm (not_mem_none m)
      · exact h.fresh x hx
    local_settled := fun id hid =>
      (h.local_settled id hid).imp_left (hother id fun heq => hlocal (heq ▸ hid))
    again := fun id hqueued =>
      (h.again id hqueued).imp_left (hother id fun heq => hagain (heq ▸ hqueued)) }

end

/-! ## Tracked jobs -/

/-- A job is tracked no more. -/
theorem untrack (h : s.OneExecutor) : (s.setTracked jobId none).OneExecutor := by
  have hnone : ∀ id, s.reroutedJobs id = none → (s.setTracked jobId none).reroutedJobs id = none := by
    intro id hid
    simp only [setTracked]
    split
    · rfl
    · exact hid
  have hsome : ∀ id t, (s.setTracked jobId none).reroutedJobs id = some t →
    s.reroutedJobs id = some t := by
    intro id t ht
    simp only [setTracked] at ht
    split at ht
    · cases ht
    · exact ht
  exact { h with
    untracked := fun x hx => hnone _ (h.untracked x hx)
    tracked := fun id t ht => h.tracked id t (hsome id t ht)
    check := fun x hx => (h.check x hx).imp_right fun hpeer t ht => hpeer t (hsome _ t ht)
    local_settled := fun id hid => (h.local_settled id hid).imp_left fun hsettled =>
      ⟨hsettled.1, hnone _ hsettled.2⟩
    again := fun id hqueued => (h.again id hqueued).imp_left fun hsettled =>
      ⟨hsettled.1, hnone _ hsettled.2⟩ }

/-- A job is tracked that no call looks for. -/
theorem track (h : s.OneExecutor) (hid : tracked.id = s.nextId) (hsettled : s.Settled tracked.jobId)
    (hpeer : ∀ d ∈ s.held, d.jobId = tracked.jobId → d.instanceId = tracked.peerId ∨ d ∈ s.cancels)
    (hlocal : tracked.jobId ∉ s.localJobs) (hagain : ⟨tracked.jobId, .tryLocalRedispatch⟩ ∉ s.queued) :
    (s.track tracked).OneExecutor := by
  have hother : ∀ id, id ≠ tracked.jobId → s.Settled id →
    (s.setTracked tracked.jobId (some tracked)).Settled id :=
    fun id hne h => ⟨h.1, (if_neg hne).trans h.2⟩
  exact { h.bump with
    untracked := fun x hx => (if_neg (hsettled.1 x hx)).trans (h.untracked x hx)
    tracked := by
      intro id t ht
      simp only [RerouteState.track, setTracked] at ht
      split at ht
      · next heq =>
        cases ht
        exact ⟨heq.symm, hid ▸ Nat.lt_succ_self _, fun d hd hjob => hpeer d hd (hjob.trans heq)⟩
      · exact h.bump.tracked id t ht
    check := by
      intro x hx
      refine (h.bump.check x hx).imp_right fun hcheck t ht heq => ?_
      simp only [RerouteState.track, setTracked] at ht
      split at ht
      · cases ht
        exact absurd (heq.symm.trans hid) (h.check x hx).1.ne
      · exact hcheck t ht heq
    local_settled := fun id hmem =>
      (h.local_settled id hmem).imp_left (hother id fun heq => hlocal (heq ▸ hmem))
    again := fun id hmem => (h.again id hmem).imp_left (hother id fun heq => hagain (heq ▸ hmem)) }

/-- What is noted of a job that is tracked leaves alone which peer has it. -/
theorem modifyTracked {f : TrackedReroute → TrackedReroute} (h : s.OneExecutor)
    (hf : ∀ t, (f t).id = t.id ∧ (f t).jobId = t.jobId ∧ (f t).peerId = t.peerId) :
    (s.modifyTracked tracked f).OneExecutor := by
  rw [RerouteState.modifyTracked]
  split
  · next current hcurrent =>
    split
    · have hnone : ∀ id, s.reroutedJobs id = none →
          (s.setTracked tracked.jobId (some (f current))).reroutedJobs id = none := by
        intro id hid
        simp only [setTracked]
        split
        · next heq =>
          rw [heq, hcurrent] at hid
          cases hid
        · exact hid
      have hsome : ∀ id t, (s.setTracked tracked.jobId (some (f current))).reroutedJobs id = some t →
          ∃ t' ∈ s.reroutedJobs id, t.id = t'.id ∧ t.jobId = t'.jobId ∧ t.peerId = t'.peerId := by
        intro id t ht
        simp only [setTracked] at ht
        split at ht
        · next heq =>
          cases ht
          exact ⟨current, heq ▸ hcurrent, hf current⟩
        · exact ⟨t, ht, rfl, rfl, rfl⟩
      exact { h with
        untracked := fun x hx => hnone _ (h.untracked x hx)
        tracked := by
          intro id t ht
          obtain ⟨t', ht', hid, hjob, hpeer⟩ := hsome id t ht
          rw [hid, hjob, hpeer]
          exact h.tracked id t' ht'
        check := by
          intro x hx
          refine (h.check x hx).imp_right fun hcheck t ht heq => ?_
          obtain ⟨t', ht', hid, -, hpeer⟩ := hsome _ t ht
          exact hpeer.trans (hcheck t' ht' (hid.symm.trans heq))
        local_settled := fun id hid =>
          (h.local_settled id hid).imp_left fun hsettled => ⟨hsettled.1, hnone _ hsettled.2⟩
        again := fun id hqueued =>
          (h.again id hqueued).imp_left fun hsettled => ⟨hsettled.1, hnone _ hsettled.2⟩ }
    · exact h
  · exact h

/-! ## Steps -/

/-- If no cancel is on its way, those that are to cancel the job are none. -/
theorem free_of_cancelled (h : s.Cancelled jobId) (hnone : s.cancelled jobId = false) :
    ∀ d ∈ s.held, d.jobId ≠ jobId := by
  intro d hd heq
  rw [cancelled, List.any_eq_false] at hnone
  exact hnone d (h d hd heq) (decide_eq_true heq)

/-- A new job has neither executors nor calls. -/
theorem of_isNew (hnew : s.isNew jobId) : (s.Settled jobId ∧ ∀ d ∈ s.held, d.jobId ≠ jobId) ∧
    jobId ∉ s.localJobs ∧ ∀ source, ⟨jobId, source⟩ ∉ s.queued := by
  obtain ⟨hcalls, hlocal, hqueued, htracked, hheld⟩ := of_decide_eq_true hnew
  refine ⟨⟨⟨fun call hcall => of_decide_eq_true (all_eq_true.1 hcalls call hcall),
    isNone_iff_eq_none.1 htracked⟩,
    fun d hd => of_decide_eq_true (all_eq_true.1 hheld d hd)⟩, hlocal, fun source hmem => ?_⟩
  exact of_decide_eq_true (all_eq_true.1 hqueued _ hmem) rfl

section

variable (h : s.OneExecutor)
include h

/-- No message is about a job that no call looks for. -/
theorem reroutes_ne (hsettled : s.Settled jobId) : ∀ m ∈ s.reroutes, m.jobId ≠ jobId := by
  intro m hm heq
  obtain ⟨call, hcall, hwaits⟩ := (h.reroute m hm).1
  exact hsettled.1 call hcall ((jobId_of_message? hwaits).trans heq)

/-- An orchestrator takes a job that no call looks for and that no one has. -/
theorem hold_settled {instanceId : String} (hsettled : s.Settled jobId)
    (hfree : ∀ d ∈ s.held, d.jobId ≠ jobId)
    (hlocal : jobId ∈ s.localJobs → ⟨jobId, .routeJobs⟩ ∉ s.queued)
    (hagain : ⟨jobId, .tryLocalRedispatch⟩ ∉ s.queued) : (s.hold instanceId jobId).OneExecutor :=
  h.hold hfree (fun call hcall heq => absurd heq (hsettled.1 call hcall)) hsettled.2
    (h.reroutes_ne hsettled) hlocal
    hagain

theorem routeJobs
    (hnew : s.isNew jobId) : (s.routeJobs c jobId result sortedPeers).OneExecutor := by
  obtain ⟨⟨hsettled, hfree⟩, hlocal, hqueued⟩ := of_isNew hnew
  have hcancelled : s.Cancelled jobId := fun d hd heq => absurd heq (hfree d hd)
  cases result with
  | dispatched =>
    have hheld : (s.hold c.instanceId jobId).OneExecutor :=
      h.hold_settled hsettled hfree (fun hmem => absurd hmem hlocal) (hqueued _)
    exact { hheld with
      local_settled := by
        intro id hid
        rcases mem_cons.1 hid with rfl | hid
        · exact ⟨hsettled, hqueued _⟩
        · exact hheld.local_settled id hid
      local_cancelled := by
        intro id hid hmem
        rcases mem_cons.1 hid with rfl | hid
        · exact absurd hmem (hqueued _)
        · exact hheld.local_cancelled id hid hmem }
  | queuedNoBackend =>
    have hentry : ({ s with queued := ⟨jobId, .routeJobs⟩ :: s.queued } : RerouteState).OneExecutor :=
      { h with
        local_settled := by
          intro id hid
          refine (h.local_settled id hid).imp_right fun hnone hmem => ?_
          rcases mem_cons.1 hmem with heq | hmem
          · cases heq
          · exact hnone hmem
        local_cancelled := by
          intro id hid hmem
          rcases mem_cons.1 hmem with heq | hmem
          · cases heq
            exact absurd hid hlocal
          · exact h.local_cancelled id hid hmem
        again := by
          intro id hmem
          rcases mem_cons.1 hmem with heq | hmem
          · cases heq
          · exact h.again id hmem
        queued := nodup_cons.2 ⟨hqueued _, h.queued⟩ }
    refine hentry.addCall hsettled hcancelled hlocal fun hmem => ?_
    rcases mem_cons.1 hmem with heq | hmem
    · cases heq
    · exact hqueued _ hmem
  | rejected => exact h.addCall hsettled hcancelled hlocal (hqueued _)

/-- The job that no peer has taken is one that no one has, but for those that are to cancel it. -/
theorem cancelled_of_nextPeer (hcall : call ∈ s.calls) (hpoint : call.point = .nextPeer) :
    s.Cancelled call.jobId := by
  intro d hd heq
  refine (h.peer call hcall d hd heq).resolve_left fun hpeer => ?_
  rw [peer?, hpoint] at hpeer
  cases hpeer

/-- A peer is sent a job that no one has, but for those that are to cancel it. -/
theorem sendReroute {rest : List String} (hcall : call ∈ s.calls)
    (hpoint : call.point = .nextPeer) : (s.sendReroute call peerId rest).OneExecutor := by
  have hcancelled := h.cancelled_of_nextPeer hcall hpoint
  -- No message has the new id yet.
  have hmessages : ∀ m ∈ s.reroutes, m.messageId ≠ s.nextId := by
    intro m hm
    obtain ⟨x, hx, hwaits⟩ := (h.reroute m hm).1
    exact (h.fresh x hx m hwaits).ne
  have hacks : ∀ a ∈ s.acks, a.message.messageId ≠ s.nextId := fun a ha => (h.ack a ha).2.1.ne
  have hwaiting : (({ s with nextId := s.nextId + 1 } : RerouteState).setCall call
      { call with sortedPeers := rest, point := .answer peerId s.nextId }).OneExecutor := by
    refine h.bump.setCall hcall rfl (fun d hd heq => .inr (hcancelled d hd heq)) (fun m hm hwaits => ?_)
      (fun a ha _ hwaits => ?_) fun m hm => ?_
    · rw [message?, hpoint] at hwaits
      cases hwaits
    · exact absurd (congrArg JobReroute.messageId (some.inj hwaits)).symm (hacks a ha)
    · cases hm
      exact Nat.lt_succ_self _
  exact { hwaiting with
    reroute := by
      intro m hm
      rcases mem_cons.1 hm with rfl | hm
      · exact ⟨⟨_, mem_cons_self, rfl⟩, hcancelled⟩
      · exact hwaiting.reroute m hm
    once := nodup_cons.2 ⟨fun hmem => hmessages _ hmem rfl, h.once⟩
    ack := by
      intro a ha
      obtain ⟨hmessage, hid, hrefused⟩ := hwaiting.ack a ha
      refine ⟨fun hmem => ?_, hid, hrefused⟩
      rcases mem_cons.1 hmem with heq | hmem
      · exact hacks a ha (congrArg JobReroute.messageId heq)
      · exact hmessage hmem }

theorem handleIncomingReroute {accepts : Bool}
    (hmem : message ∈ s.reroutes)
    (hok : s.takesUp c message accepts → s.cancelled message.jobId = false) :
    (s.handleIncomingReroute c message accepts).OneExecutor := by
  obtain ⟨⟨call, hcall, hwaits⟩, hcancelled⟩ := h.reroute message hmem
  have hjob : call.jobId = message.jobId := jobId_of_message? hwaits
  have hgone : message ∉ s.reroutes.erase message := h.once.not_mem_erase
  have hid : message.messageId < s.nextId := h.fresh call hcall message hwaits
  have herased : ({ s with reroutes := s.reroutes.erase message } : RerouteState).OneExecutor :=
    h.eraseReroute
  rw [handleIncomingReroute.eq_def]
  simp only
  split
  · refine herased.addAck hgone hid fun _ x _ hx => ?_
    exact jobId_of_message? hx ▸ hcancelled
  · next htakes =>
    rw [not_or] at htakes
    split
    · exact herased.addAck hgone hid fun hfalse => absurd hfalse.symm Bool.false_ne_true
    · next hrow =>
      -- The peer takes the job up: no cancel is on its way, so no one has it.
      have hfree : ∀ d ∈ s.held, d.jobId ≠ message.jobId :=
        free_of_cancelled hcancelled
          (hok (decide_eq_true ⟨htakes.1, Bool.of_not_eq_false htakes.2, hrow⟩))
      have hsame : ∀ x ∈ s.calls, x.jobId = message.jobId → x = call :=
        fun x hx heq => h.call_unique hx hcall (heq.trans hjob.symm)
      have hheld : ({ s with reroutes := s.reroutes.erase message } : RerouteState).hold message.peerId
          message.jobId |>.OneExecutor := by
        refine herased.hold hfree (fun x hx heq => ?_) (hjob ▸ h.untracked call hcall)
          (fun m hm heq => ?_)
          (fun hlocal => ?_) fun hagain => ?_
        · obtain rfl := hsame x hx heq
          refine ⟨peer?_of_message? hwaits, fun a ha _ hwaits' => ?_⟩
          rw [hwaits] at hwaits'
          exact (h.ack a ha).1 (some.inj hwaits' ▸ hmem)
        · obtain ⟨x, hx, hwaits'⟩ := (h.reroute m (mem_of_mem_erase hm)).1
          obtain rfl := hsame x hx ((jobId_of_message? hwaits').trans heq)
          rw [hwaits] at hwaits'
          exact hgone (some.inj hwaits' ▸ hm)
        · exact absurd hjob ((h.local_settled _ hlocal).1.1 call hcall)
        · exact absurd hjob ((h.again _ hagain).1.1 call hcall)
      exact { hheld with
        ack := (hheld.addAck hgone hid fun hfalse => absurd hfalse.symm Bool.false_ne_true).ack }

/-- A call goes on with the answer of a peer; one that refuses does not have the job. -/
theorem answered {accepted : Bool} (hcall : call ∈ s.calls)
    (hwaits : call.message? = some message) (hmessage : message ∉ s.reroutes)
    (hrefused : accepted = false → s.Cancelled call.jobId) :
    (s.setCall call (call.answered message.peerId accepted)).OneExecutor := by
  refine h.setCall hcall rfl (fun d hd heq => ?_) (fun m hm hm' => ?_) (fun a _ _ ha => ?_)
    fun m hm => ?_
  · cases accepted with
    | false => exact .inr (hrefused rfl d hd heq)
    | true =>
      have hpeer := h.peer call hcall d hd heq
      rw [peer?_of_message? hwaits] at hpeer
      exact hpeer
  · rw [hwaits] at hm'
    exact absurd (some.inj hm' ▸ hm) hmessage
  · rw [message?_answered] at ha
    cases ha
  · rw [message?_answered] at hm
    cases hm

theorem onAck (hack : ack ∈ s.acks) : (s.onAck ack).OneExecutor := by
  rw [onAck.eq_def]
  simp only
  split
  · next call hfind =>
    have hcall := mem_of_find?_eq_some hfind
    have hwaits : call.message? = some ack.message := of_decide_eq_true
      (find?_some (p := fun call : RerouteCall => call.message? = some ack.message) hfind)
    obtain ⟨hmessage, -, hrefused⟩ := h.ack ack hack
    exact h.eraseAck.answered hcall hwaits hmessage fun hfalse => hrefused hfalse call hcall hwaits
  · exact h.eraseAck

/-- A peer that does not answer in time does not have the job. -/
theorem ackTimeout (hcall : call ∈ s.calls)
    (hwaits : call.message? = some message) (hmessage : message ∉ s.reroutes)
    (hheld : ⟨message.peerId, call.jobId⟩ ∉ s.held) :
    (s.setCall call (call.answered message.peerId false)).OneExecutor := by
  refine h.answered hcall hwaits hmessage fun _ d hd heq => ?_
  refine (h.peer call hcall d hd heq).resolve_left fun hpeer => ?_
  rw [peer?_of_message? hwaits] at hpeer
  have hsame : d = ⟨message.peerId, call.jobId⟩ := by
    cases d
    cases hpeer
    cases heq
    rfl
  exact hheld (hsame ▸ hd)

theorem trackReroutedJob {kept : Bool} {maxAttempts : ℕ}
    (hcall : call ∈ s.calls) (hpoint : call.point = .track peerId) :
    (s.trackReroutedJob call peerId kept maxAttempts).OneExecutor := by
  have hmessage : call.message? = none := by rw [message?, hpoint]
  have hpeer : ∀ d ∈ s.held, d.jobId = call.jobId → d.instanceId = peerId ∨ d ∈ s.cancels := by
    intro d hd heq
    refine (h.peer call hcall d hd heq).imp_left fun hsome => ?_
    rw [peer?, hpoint] at hsome
    exact (some.inj hsome).symm
  have hended := h.endCall hmessage
  have hlocal : call.jobId ∉ s.localJobs := fun hmem => (h.local_settled _ hmem).1.1 call hcall rfl
  have hagain : ⟨call.jobId, .tryLocalRedispatch⟩ ∉ s.queued := fun hmem =>
    (h.again _ hmem).1.1 call hcall rfl
  have htracked : ((s.endCall call).track (call.tracked s.nextId peerId maxAttempts)).OneExecutor :=
    hended.track rfl (h.settled_endCall hcall) hpeer hlocal hagain
  rw [trackReroutedJob.eq_def]
  cases kept with
  | true =>
    simp only [if_true]
    split
    · exact { htracked with }
    · exact htracked
  | false =>
    simp only [Bool.false_eq_true, if_false]
    split
    · exact { hended with }
    · exact hended

theorem tryLocalRedispatch (hsettled : s.Settled jobId)
    (hcancelled : s.Cancelled jobId) (hlocal : jobId ∉ s.localJobs)
    (hagain : ⟨jobId, .tryLocalRedispatch⟩ ∉ s.queued)
    (hok : result = .dispatched → s.cancelled jobId = false) :
    (s.tryLocalRedispatch c jobId result).OneExecutor := by
  rw [tryLocalRedispatch.eq_def]
  split
  · exact h
  · cases result with
    | dispatched =>
      have hfree := free_of_cancelled hcancelled (hok rfl)
      exact { h.hold_settled hsettled hfree (fun hmem => absurd hmem hlocal) hagain with }
    | queuedNoBackend =>
      exact { h with
        local_settled := by
          intro id hid
          refine (h.local_settled id hid).imp_right fun hnone hmem => ?_
          rcases mem_cons.1 hmem with heq | hmem
          · cases heq
            exact hlocal hid
          · exact hnone hmem
        local_cancelled := by
          intro id hid hmem
          rcases mem_cons.1 hmem with heq | hmem
          · cases heq
          · exact h.local_cancelled id hid hmem
        again := by
          intro id hmem
          rcases mem_cons.1 hmem with heq | hmem
          · cases heq
            exact ⟨hsettled, hcancelled⟩
          · exact h.again id hmem
        queued := nodup_cons.2 ⟨hagain, h.queued⟩ }
    | rejected => exact h

theorem noPeerLeft (hcall : call ∈ s.calls)
    (hpoint : call.point = .nextPeer) (hok : result = .dispatched → s.cancelled call.jobId = false) :
    (s.noPeerLeft c call result).OneExecutor := by
  have hmessage : call.message? = none := by rw [message?, hpoint]
  have hended := h.endCall hmessage
  have hsettled := h.settled_endCall hcall
  have hcancelled : (s.endCall call).Cancelled call.jobId := h.cancelled_of_nextPeer hcall hpoint
  have hlocal : call.jobId ∉ s.localJobs := fun hmem => (h.local_settled _ hmem).1.1 call hcall rfl
  have hagain : ⟨call.jobId, .tryLocalRedispatch⟩ ∉ s.queued := fun hmem =>
    (h.again _ hmem).1.1 call hcall rfl
  rw [noPeerLeft.eq_def]
  split
  · exact { hended with
      local_settled := by
        intro id hid
        rcases mem_cons.1 hid with rfl | hid
        · exact ⟨hsettled, hagain⟩
        · exact hended.local_settled id hid
      local_cancelled := by
        intro id hid hmem
        rcases mem_cons.1 hid with rfl | hid
        · exact hcancelled
        · exact hended.local_cancelled id hid hmem }
  · exact hended
  · exact hended.tryLocalRedispatch hsettled hcancelled hlocal hagain hok

/-- An agent claims a job that no peer has. -/
theorem claimQueuedJob (hmem : entry ∈ s.queued)
    (hsource : entry.source = .routeJobs → entry.jobId ∈ s.localJobs)
    (hok : s.cancelled entry.jobId = false) :
    ({ s.hold c.instanceId entry.jobId with queued := s.queued.erase entry } :
      RerouteState).OneExecutor := by
  obtain ⟨id, source⟩ := entry
  have hgone : ⟨id, source⟩ ∉ s.queued.erase ⟨id, source⟩ := h.queued.not_mem_erase
  have herased : ({ s with queued := s.queued.erase ⟨id, source⟩ } : RerouteState).OneExecutor :=
    h.eraseQueued
  cases source with
  | routeJobs =>
    have hlocal := hsource rfl
    obtain ⟨hsettled, hagain⟩ := h.local_settled id hlocal
    have hfree := free_of_cancelled (h.local_cancelled id hlocal hmem) hok
    exact herased.hold_settled hsettled hfree (fun _ => hgone) fun hmem => hagain (mem_of_mem_erase hmem)
  | tryLocalRedispatch =>
    obtain ⟨hsettled, hcancelled⟩ := h.again id hmem
    refine herased.hold_settled hsettled (free_of_cancelled hcancelled hok) (fun hlocal => ?_) hgone
    exact absurd hmem (h.local_settled id hlocal).2

end

/-! ## Steps: jobs that a peer has taken -/

section

variable (h : s.OneExecutor)
include h

theorem reapOrDeferRerouteTracking : (s.reapOrDeferRerouteTracking tracked).OneExecutor :=
  have hmodified : (s.modifyTracked tracked ({ · with windowTimer := false })).OneExecutor :=
    h.modifyTracked fun _ => ⟨rfl, rfl, rfl⟩
  { hmodified with }

theorem handleRerouteSpawnTimeout : (s.handleRerouteSpawnTimeout jobId).OneExecutor := by
  rw [handleRerouteSpawnTimeout.eq_def]
  split
  · exact h
  · next tracked htracked =>
    split
    · exact h.reapOrDeferRerouteTracking
    · obtain ⟨hjob, hid, -⟩ := h.tracked jobId tracked htracked
      exact { h with
        check := by
          intro x hx
          rcases mem_cons.1 hx with rfl | hx
          · refine ⟨hid, fun t ht _ => ?_⟩
            rw [hjob, htracked] at ht
            cases ht
            rfl
          · exact h.check x hx }

/-- A job is taken from its peer. -/
theorem redispatch {sent : Bool}
    {current : TrackedReroute} (hcurrent : s.reroutedJobs tracked.jobId = some current)
    (hpeer : current.peerId = tracked.peerId)
    (hsent : sent = false → ⟨tracked.peerId, tracked.jobId⟩ ∉ s.held) :
    (s.redispatch tracked sent sortedPeers).OneExecutor := by
  obtain ⟨-, -, hholders⟩ := h.tracked _ current hcurrent
  have hsettled : (s.setTracked tracked.jobId none).Settled tracked.jobId := by
    refine ⟨fun call hcall heq => ?_, if_pos rfl⟩
    have hnone := h.untracked call hcall
    rw [heq, hcurrent] at hnone
    cases hnone
  have hlocal : tracked.jobId ∉ s.localJobs := by
    intro hmem
    have hnone := (h.local_settled _ hmem).1.2
    rw [hcurrent] at hnone
    cases hnone
  have hagain : ⟨tracked.jobId, .tryLocalRedispatch⟩ ∉ s.queued := by
    intro hmem
    have hnone := (h.again _ hmem).1.2
    rw [hcurrent] at hnone
    cases hnone
  have hsame : ∀ d ∈ s.held, d.jobId = tracked.jobId →
      d = ⟨tracked.peerId, tracked.jobId⟩ ∨ d ∈ s.cancels := by
    intro d hd heq
    refine (hholders d hd heq).imp_left fun hinstance => ?_
    rw [← hpeer, ← hinstance, ← heq]
  rw [redispatch.eq_def]
  simp only
  cases sent with
  | false =>
    refine h.untrack.addCall hsettled (fun d hd heq => ?_) hlocal hagain
    exact (hsame d hd heq).resolve_left fun hd' => hsent rfl (hd' ▸ hd)
  | true =>
    have huntracked : (s.setTracked tracked.jobId none).OneExecutor := h.untrack
    have hcancels := huntracked.of_held_subset (fun _ hd => hd)
      fun d _ hd => mem_cons_of_mem ⟨tracked.peerId, tracked.jobId⟩ hd
    refine hcancels.addCall hsettled (fun d hd heq => ?_) hlocal hagain
    exact (hsame d hd heq).elim (fun hd' => hd' ▸ mem_cons_self) (mem_cons_of_mem _)

theorem hasJobStarted {started sent : Bool} (hmem : tracked ∈ s.checks)
    (hok : started = false → ((s.reroutedJobs tracked.jobId).any (·.id = tracked.id)) ∧
      (sent = false → ⟨tracked.peerId, tracked.jobId⟩ ∉ s.held)) :
    (s.hasJobStarted tracked started sent sortedPeers).OneExecutor := by
  have hchecked : ({ s with checks := s.checks.erase tracked } : RerouteState).OneExecutor :=
    { h with check := fun x hx => h.check x (mem_of_mem_erase hx) }
  rw [hasJobStarted.eq_def]
  simp only
  split
  · have hstarted : (({ s with checks := s.checks.erase tracked } : RerouteState).modifyTracked tracked
        ({ · with peerStarted := true })).OneExecutor := hchecked.modifyTracked fun _ => ⟨rfl, rfl, rfl⟩
    exact hstarted.reapOrDeferRerouteTracking
  · next hstarted =>
    obtain ⟨hany, hsent⟩ := hok (Bool.of_not_eq_true hstarted)
    obtain ⟨current, hcurrent, hid⟩ := (Option.any_eq_true _ _).1 hany
    exact hchecked.redispatch hcurrent
      ((h.check tracked hmem).2 current hcurrent (of_decide_eq_true hid)) hsent

theorem isJobTerminal {terminal : Bool} : (s.isJobTerminal tracked terminal).OneExecutor := by
  have hreaped : ({ s with reaps := s.reaps.erase tracked } : RerouteState).OneExecutor := { h with }
  rw [isJobTerminal.eq_def]
  simp only
  split
  · exact hreaped.untrack
  · exact hreaped.modifyTracked fun _ => ⟨rfl, rfl, rfl⟩

theorem onPeerJobProgress {terminal : Bool} :
    (s.onPeerJobProgress jobId peerId terminal).OneExecutor := by
  rw [onPeerJobProgress.eq_def]
  split
  · exact h
  · split
    · exact h
    · split
      · exact h.untrack
      · exact h.modifyTracked fun _ => ⟨rfl, rfl, rfl⟩

theorem onPeerScalerEvent {final : Option Bool} :
    (s.onPeerScalerEvent jobId peerId final).OneExecutor := by
  rw [onPeerScalerEvent.eq_def]
  split
  · exact h
  · exact h
  · next tracked final _ =>
    split
    · exact h
    · split
      · exact h.handleRerouteSpawnTimeout
      · have hcounted : (s.modifyTracked tracked fun t =>
          { t with spawnFailures := t.spawnFailures + 1 }).OneExecutor :=
          h.modifyTracked fun _ => ⟨rfl, rfl, rfl⟩
        simp only
        split
        · exact hcounted
        · exact hcounted.handleRerouteSpawnTimeout

/-- A cancel arrives, or is lost. -/
theorem eraseCancel (hheld : holder ∉ s.held) :
    ({ s with cancels := s.cancels.erase holder } : RerouteState).OneExecutor := by
  refine h.of_held_subset (fun _ hd => hd) fun d hd hcancel => ?_
  have hne : d ≠ holder := fun heq => hheld (heq ▸ hd)
  exact (mem_erase_of_ne hne).2 hcancel

theorem deliverPeerJobCancel :
    (({ s with cancels := s.cancels.erase holder } : RerouteState).release holder).OneExecutor := by
  refine h.of_held_subset (fun _ hd => mem_of_mem_filter hd) fun d hd hcancel => ?_
  have hne : d ≠ holder := of_decide_eq_true (mem_filter.1 hd).2
  exact (mem_erase_of_ne hne).2 hcancel

theorem step {a : RerouteAction} (hok : s.OneAtATime c a) (hstep : s.step c a = some t) :
    t.OneExecutor := by
  cases a with
  | routeJobs jobId result sortedPeers =>
    obtain ⟨hnew, heq⟩ := ite_none_right_eq_some.1 hstep
    cases heq
    exact h.routeJobs hnew
  | nextPeer call sent =>
    obtain ⟨⟨hcall, hpoint⟩, heq⟩ := ite_none_right_eq_some.1 hstep
    split at heq
    · cases heq
    · cases heq
      split
      · exact h.sendReroute hcall hpoint
      · have hmessage : call.message? = none := by rw [message?, hpoint]
        refine h.setCall hcall rfl (h.peer call hcall) (fun m _ hm => hm) (fun a _ _ ha => ?_)
          (h.fresh call hcall)
        exact absurd (hmessage.symm.trans ha).symm (some_ne_none _)
  | handleIncomingReroute message accepts =>
    obtain ⟨hmem, heq⟩ := ite_none_right_eq_some.1 hstep
    cases heq
    exact h.handleIncomingReroute hmem hok
  | onAck ack =>
    obtain ⟨hmem, heq⟩ := ite_none_right_eq_some.1 hstep
    cases heq
    exact h.onAck hmem
  | ackTimeout call =>
    rw [RerouteState.step] at hstep
    split at hstep
    · next peerId messageId hpoint =>
      obtain ⟨hcall, heq⟩ := ite_none_right_eq_some.1 hstep
      cases heq
      have hwaits : call.message? = some ⟨messageId, call.jobId, peerId, call.triedConnections⟩ := by
        rw [message?, hpoint]
      exact h.ackTimeout hcall hwaits (hok _ hwaits).1 (hok _ hwaits).2
    · cases hstep
  | trackReroutedJob call kept maxAttempts =>
    rw [RerouteState.step] at hstep
    split at hstep
    · next peerId hpoint =>
      obtain ⟨hcall, heq⟩ := ite_none_right_eq_some.1 hstep
      cases heq
      exact h.trackReroutedJob hcall hpoint
    · cases hstep
  | noPeerLeft call result =>
    obtain ⟨⟨hcall, hpoint, -⟩, heq⟩ := ite_none_right_eq_some.1 hstep
    cases heq
    exact h.noPeerLeft hcall hpoint hok
  | cancelQueuedJob entry =>
    obtain ⟨-, heq⟩ := ite_none_right_eq_some.1 hstep
    cases heq
    exact h.eraseQueued
  | claimQueuedJob entry =>
    obtain ⟨hmem, heq⟩ := ite_none_right_eq_some.1 hstep
    cases heq
    exact h.claimQueuedJob hmem hok.1 hok.2
  | onPeerJobProgress jobId peerId terminal =>
    cases hstep
    exact h.onPeerJobProgress
  | onPeerScalerEvent jobId peerId final =>
    cases hstep
    exact h.onPeerScalerEvent
  | onPeerJobComplete jobId =>
    cases hstep
    exact h.untrack
  | windowTimer jobId =>
    cases hstep
    exact h.handleRerouteSpawnTimeout
  | hasJobStarted tracked started sent sortedPeers =>
    obtain ⟨hmem, heq⟩ := ite_none_right_eq_some.1 hstep
    cases heq
    exact h.hasJobStarted hmem hok
  | isJobTerminal tracked terminal =>
    obtain ⟨-, heq⟩ := ite_none_right_eq_some.1 hstep
    cases heq
    exact h.isJobTerminal
  | deliverPeerJobCancel holder delivered =>
    obtain ⟨-, heq⟩ := ite_none_right_eq_some.1 hstep
    cases heq
    cases delivered with
    | true => exact h.deliverPeerJobCancel
    | false => exact h.eraseCancel (hok rfl)
  | giveBack holder =>
    cases hstep
    exact h.release
  | loseReroute message =>
    cases hstep
    exact h.eraseReroute
  | loseAck ack =>
    cases hstep
    exact h.eraseAck
  | loseCancel holder =>
    cases hstep
    exact h.eraseCancel hok

end

end OneExecutor

end RerouteState

section Runs

variable {c : RerouteCluster} {s : RerouteState}

/-- A job has one executor. -/
theorem eq_of_held (hreach : (rerouteSystem c).Reachable (OneAtATime c) s) :
    ∀ h ∈ s.held, ∀ h' ∈ s.held, h.jobId = h'.jobId → h = h' := by
  have hone : s.OneExecutor := by
    refine hreach.invariant (fun s hinit => ?_) fun _ _ _ h hok hstep => h.step hok hstep
    obtain rfl : s = {} := hinit
    exact {
      one := nofun
      nodup := nodup_nil
      untracked := nofun
      peer := nofun
      tracked := fun _ t ht => absurd ht (not_mem_none t)
      check := nofun
      reroute := nofun
      once := nodup_nil
      ack := nofun
      fresh := nofun
      local_settled := nofun
      local_cancelled := nofun
      again := nofun
      queued := nodup_nil }
  exact hone.one

/-- A coordinator and two workers; each has a database of its own. -/
def workerCluster : RerouteCluster := ⟨"coordinator", id⟩

/-- The call that looks for an executor of a job. -/
def firstCall (sortedPeers : List String) (point : ReroutePoint) : RerouteCall :=
  ⟨"job-1", .routeJobs true, ["coordinator"], sortedPeers, point⟩

/-- The first worker takes the job. -/
def rerouteToFirst : List RerouteAction :=
  [.routeJobs "job-1" .queuedNoBackend ["worker-1", "worker-2"],
    .nextPeer (firstCall ["worker-1", "worker-2"] .nextPeer) true,
    .handleIncomingReroute ⟨0, "job-1", "worker-1", ["coordinator"]⟩ true]

/-- It does not begin the job in time, and the second one takes it. -/
def rerouteToSecond : List RerouteAction :=
  let tracked := (firstCall ["worker-2"] (.track "worker-1")).tracked 1 "worker-1" 3
  [.onAck ⟨⟨0, "job-1", "worker-1", ["coordinator"]⟩, true⟩,
    .trackReroutedJob (firstCall ["worker-2"] (.track "worker-1")) true 3,
    .cancelQueuedJob ⟨"job-1", .routeJobs⟩,
    .windowTimer "job-1",
    .hasJobStarted tracked false true ["worker-2"],
    .deliverPeerJobCancel ⟨"worker-1", "job-1"⟩ true,
    .nextPeer ⟨"job-1", .handleRerouteSpawnTimeout, ["coordinator", "worker-1"], ["worker-2"],
      .nextPeer⟩ true,
    .handleIncomingReroute ⟨2, "job-1", "worker-2", ["coordinator", "worker-1"]⟩ true]

/-- A job that is taken from a worker and given to another one has one executor. -/
theorem eq_of_held_rerouted : ∃ s : RerouteState,
    (rerouteSystem workerCluster).Reachable (OneAtATime workerCluster) s ∧
      s.held = [⟨"worker-2", "job-1"⟩] ∧ ∀ h ∈ s.held, ∀ h' ∈ s.held, h.jobId = h'.jobId → h = h' := by
  obtain ⟨s, hpath, hs⟩ : ∃ s, (rerouteSystem workerCluster).Path (OneAtATime workerCluster) {} s ∧
      decide (s.held = [⟨"worker-2", "job-1"⟩]) :=
    System.exists_path_of_run (fun _ _ => of_decide_eq_true) (rerouteToFirst ++ rerouteToSecond)
      (by decide)
  have hreach : (rerouteSystem workerCluster).Reachable (OneAtATime workerCluster) s :=
    ⟨_, rfl, hpath⟩
  exact ⟨s, hreach, of_decide_eq_true hs, eq_of_held hreach⟩

/-- The answer of the first worker is late: the second one takes the job too. -/
theorem exists_held_ne : ∃ c s, (rerouteSystem c).Reachable System.anyStep s ∧
    ∃ h ∈ s.held, ∃ h' ∈ s.held, h.jobId = h'.jobId ∧ h ≠ h' := by
  obtain ⟨s, hpath, hs⟩ := (rerouteSystem workerCluster).exists_path {}
      (fun s => ∃ h ∈ s.held, ∃ h' ∈ s.held, h.jobId = h'.jobId ∧ h ≠ h') System.anyStep_of_true
        (rerouteToFirst ++
      [.ackTimeout (firstCall ["worker-2"] (.answer "worker-1" 0)),
        .nextPeer (firstCall ["worker-2"] .nextPeer) true,
        .handleIncomingReroute ⟨1, "job-1", "worker-2", ["coordinator"]⟩ true]) (by decide)
  exact ⟨_, s, ⟨_, rfl, hpath⟩, hs⟩

end Runs

end Kici
