import Kici.Foundation.System

/-!
# Retries of a spawn

A worker retries the spawn of an agent for a job that was rerouted to it, a bounded number of times
and with a pause after each failure (`SpawnRetryBudget`). A request to the scaler is let through if
it takes the *gate* of the job (`beginAttempt`), which is free again once the request has spawned
nothing, the agent that it spawned has failed, or the job has been delivered.

The worker, its queue and its scaler as far as one job goes are a transition system (`spawnSystem`).
A request that was let through waits for the scaler for any time, and its agent may fail before
that. What goes beyond the state of the program is kept beside it: which request took the gate,
which agents are over, and when the pauses end.
-/

namespace Kici.Worker

/-- What the coordinator allows. -/
structure RerouteSpawnRetry where
  maxAttempts : ℕ
  backoffMs : ℕ
  one_le : 1 ≤ maxAttempts

inductive SpawnAttemptGate
  | untracked
  | begun
  | inFlight
  | backoff
  | notQueued
  deriving DecidableEq

/-- The budget's verdict on one spawn failure. -/
inductive FailureVerdict
  | untracked
  | tracked (final : Bool) (failures maxAttempts : ℕ) (duplicate : Bool)

/-- The budget of a job. -/
structure Entry where
  policy : RerouteSpawnRetry
  /-- The agents whose spawn failed. -/
  failedAgents : List ℕ
  inFlight : Bool
  /-- The agent that the attempt in flight spawns, once the scaler named it. -/
  holder : Option ℕ
  backoffUntil : ℕ
  /-- Whether a timer is set, which offers the job again. -/
  timer : Bool

namespace Entry

variable (entry : Entry)

def new (policy : RerouteSpawnRetry) : Entry where
  policy
  failedAgents := []
  inFlight := false
  holder := none
  backoffUntil := 0
  timer := false

/-- Take the gate. -/
def begin : Entry := { entry with inFlight := true }

def setHolder (agentId : ℕ) : Entry :=
  if !entry.inFlight || entry.holder.isSome || entry.failedAgents.contains agentId then entry
  else { entry with holder := some agentId }

def abortAttempt : Entry := { entry with inFlight := false, holder := none }

/-- Offer the job again behind a pause. -/
def scheduleRedrive (now delayMs : ℕ) : Entry :=
  { entry with backoffUntil := now + delayMs, timer := true }

def deferAttempt (now delayMs : ℕ) : Entry := entry.abortAttempt.scheduleRedrive now delayMs

/-- The failure is one of the spawn that holds the gate, or of one that the scaler has not named. -/
def holdsGate (agentId : ℕ) : Bool :=
  entry.inFlight && (entry.holder == none || entry.holder == some agentId)

/-- The budget with one more failure. -/
def charge (now agentId : ℕ) : Entry :=
  let charged := { entry.abortAttempt with failedAgents := entry.failedAgents ++ [agentId] }
  if entry.policy.maxAttempts ≤ charged.failedAgents.length then charged
  else charged.scheduleRedrive now entry.policy.backoffMs

/-- The timer goes off. -/
def fire : Entry := { entry with timer := false, backoffUntil := 0 }

end Entry

/-- The answer to "may this job start a spawn now?". -/
def beginAttempt (entry : Option Entry) (isQueued : Bool) (now : ℕ) : SpawnAttemptGate :=
  match entry with
  | none => .untracked
  | some entry =>
    if !isQueued then .notQueued
    else if entry.inFlight then .inFlight
    else if now < entry.backoffUntil then .backoff
    else .begun

def recordFailure (entry : Option Entry) (isQueued : Bool) (now agentId : ℕ) :
    FailureVerdict × Option Entry :=
  match entry with
  | none => (.untracked, none)
  | some entry =>
    if !isQueued then (.untracked, some entry)
    else if entry.failedAgents.contains agentId then
      (.tracked (decide (entry.policy.maxAttempts ≤ entry.failedAgents.length)) entry.failedAgents.length
        entry.policy.maxAttempts true, some entry)
    else if entry.holdsGate agentId then
      (.tracked (decide (entry.policy.maxAttempts ≤ (entry.charge now agentId).failedAgents.length))
        (entry.charge now agentId).failedAgents.length entry.policy.maxAttempts false,
          some (entry.charge now agentId))
    else (.untracked, some entry)

/-- Where the job is in the queue of the worker. -/
inductive JobPlace
  | pending
  | dispatched
  | gone
  deriving DecidableEq

/-- What the scaler answers. -/
inductive ScaleAnswer
  | spawning
  | atCapacity
  | noBackend
  | failed
  | skipped (retryAfterMs : Option ℕ)
  | threw

/-- A request that waits for the scaler. The agent that it spawns has its number. -/
structure ScaleRequest where
  agentId : ℕ
  gate : SpawnAttemptGate
  deriving DecidableEq

structure SpawnState where
  entry : Option Entry
  now : ℕ
  place : JobPlace
  stopped : Bool
  /-- The requests made so far. -/
  made : ℕ
  requests : List ScaleRequest
  /-- The verdicts relayed to the coordinator, which say whether the failure is the last one. -/
  relayed : List Bool
  /-- The request that took the gate as it is held. -/
  owner : Option ℕ
  /-- The agents that failed or have taken the job. -/
  ended : List ℕ
  /-- The ends of the pauses. -/
  pauses : List ℕ
  /-- The requests that were let through during a pause. -/
  early : List ℕ

inductive SpawnAction
  /-- The job is offered to the scaler. -/
  | offer
  | answer (agentId : ℕ) (result : ScaleAnswer)
  /-- The scaler reports that an agent failed. -/
  | fail (agentId : ℕ)
  /-- An agent takes the job from the queue, one that was spawned for it or another. -/
  | claim (agentId : Option ℕ)
  | delivered
  | requeue
  /-- The timer of the budget goes off. -/
  | fire
  | tick (ms : ℕ)
  /-- The job is marked as stopped. -/
  | stop
  /-- The job leaves the queue. -/
  | remove
  /-- The budget is dropped. -/
  | release

namespace SpawnState

variable (s : SpawnState)

def isPending : Bool := s.place = .pending && !s.stopped

/-- What a request that took the gate does with the answer. -/
def settle (entry : Entry) (now agentId : ℕ) : ScaleAnswer → Entry
  | .spawning => entry.setHolder agentId
  | .skipped (some retryAfterMs) => entry.deferAttempt now retryAfterMs
  | _ => entry.abortAttempt

/-- The pauses with the one that the answer begins. -/
def pausesOf (pauses : List ℕ) (now : ℕ) : ScaleAnswer → List ℕ
  | .skipped (some retryAfterMs) => (now + retryAfterMs) :: pauses
  | _ => pauses

/-- Whoever holds the gate as long as it is held. -/
def ownerOf (entry : Entry) : Option ℕ := if entry.inFlight then s.owner else none

/-- The state with another entry. -/
def withEntry (entry : Entry) : SpawnState := { s with entry := some entry, owner := s.ownerOf entry }

def offer : SpawnState :=
  match beginAttempt s.entry s.isPending s.now with
  | .begun =>
    { s with
      entry := s.entry.map Entry.begin
      made := s.made + 1
      requests := ⟨s.made, .begun⟩ :: s.requests
      owner := some s.made
      early := if s.pauses.any (s.now < ·) then s.made :: s.early else s.early }
  | .untracked => { s with made := s.made + 1, requests := ⟨s.made, .untracked⟩ :: s.requests }
  | _ => s

/-- The request, which has its answer, goes on. -/
def resume (request : ScaleRequest) (result : ScaleAnswer) : SpawnState :=
  let s := { s with requests := s.requests.erase request }
  match request.gate, s.entry with
  | .begun, some entry =>
    { s.withEntry (settle entry s.now request.agentId result) with
      pauses := pausesOf s.pauses s.now result }
  | _, _ => s

/-- The failure is recorded and relayed; with the last one the job is given back. -/
def fail (agentId : ℕ) : SpawnState :=
  let s' := { s with ended := agentId :: s.ended }
  match recordFailure s.entry s.isPending s.now agentId with
  | (.tracked final _ _ false, some entry) =>
    { s'.withEntry entry with
      relayed := s.relayed ++ [final]
      stopped := s.stopped || final
      pauses := if final then s.pauses else entry.backoffUntil :: s.pauses }
  | _ => s'

end SpawnState

variable (policy : RerouteSpawnRetry)

def spawnStep (s : SpawnState) : SpawnAction → Option SpawnState
  | .offer => some s.offer
  | .answer agentId result =>
    match s.requests.find? (·.agentId = agentId) with
    | some request => some (s.resume request result)
    | none => none
  | .fail agentId => if agentId < s.made then some (s.fail agentId) else none
  | .claim agentId =>
    if s.isPending && agentId.all (· < s.made) then
      some { s with place := .dispatched, ended := agentId.toList ++ s.ended }
    else none
  | .delivered =>
    if s.place = .dispatched then
      match s.entry with
      | some entry => some (s.withEntry entry.abortAttempt)
      | none => some s
    else none
  | .requeue =>
    if s.place = .dispatched then
      if s.stopped then some { s with place := .gone, stopped := false }
        else some { s with place := .pending }
    else none
  | .fire =>
    match s.entry with
    | some entry =>
      if entry.timer then
        some { s with entry := some entry.fire, pauses := s.pauses.filter (entry.backoffUntil < ·) }
      else none
    | none => none
  | .tick ms => some { s with now := s.now + ms }
  | .stop => if s.place = .gone then none else some { s with stopped := true }
  | .remove => some { s with place := .gone, stopped := false }
  | .release => some { s with entry := none, owner := none, pauses := [] }

/-- A job that was rerouted waits in the queue. -/
def spawnSystem : System SpawnState SpawnAction where
  init := {s | s.entry = some (.new policy) ∧ s.place = .pending ∧ s.stopped = false ∧ s.made = 0 ∧
    s.requests = [] ∧ s.relayed = [] ∧ s.owner = none ∧ s.ended = [] ∧ s.pauses = [] ∧ s.early = []}
  step := spawnStep

/-- The budget is kept, and the job does not wait for nothing. -/
structure BudgetHonoured (s : SpawnState) : Prop where
  /-- One request at a time waits with the gate. -/
  one_request : (s.requests.filter (·.gate = .begun)).length ≤ 1
  not_early : s.early = []
  /-- So many failures are reported, and the last of them is the final one. -/
  length_relayed_le : s.relayed.length ≤ policy.maxAttempts
  final_iff : ∀ i final, s.relayed[i]? = some final → (final = true ↔ i + 1 = policy.maxAttempts)
  /-- A job that waits, without a request that does, is offered when it may be, or an agent is on
  its way. -/
  offered : ∀ entry, s.entry = some entry → s.isPending = true →
    entry.failedAgents.length < policy.maxAttempts →
    s.requests = [] → (entry.inFlight = false ∧ entry.backoffUntil ≤ s.now) ∨ entry.timer = true ∨
      ∃ agentId, entry.holder = some agentId ∧ agentId ∉ s.ended

end Kici.Worker
