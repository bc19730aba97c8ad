import Kici.Sandbox.Messages

/-!
# The concurrency handshake of the runner

A runner whose workflow has a concurrency group reports the key of the group and waits for an ack;
if it is told to wait, it waits a second time, until its slot is free. Both waits share one slot for
their waiter (`pendingConcurrencyAck`). It is empty from the dispatch of the first ack until the
code that awaited it goes on, as a microtask, and what is dispatched in between is dropped: an ack
that is read in the same chunk as the first one.

What the runner does not decide is an action: the orchestrator answers, bytes come in chunks, time
passes, timers fire.
-/

namespace Kici

open Ipc

inductive ConcurrencyAckAction
  | proceed
  | wait
  | cancel
  deriving DecidableEq

structure ConcurrencyAck where
  action : ConcurrencyAckAction
  reason : Option JsString := none
  deriving DecidableEq

/-- A message of the agent: an ack, or another one, which no waiter for an ack is told of. -/
inductive AgentToRunnerMessage
  | concurrencyAck (ack : ConcurrencyAck)
  | other

/-- The acks among messages. -/
def acksOf (msgs : List AgentToRunnerMessage) : List ConcurrencyAck :=
  msgs.filterMap fun msg => match msg with
    | .concurrencyAck ack => some ack
    | .other => none

structure ConcurrencyTimeouts where
  concurrencyTimeoutMs : ℕ
  waitCapMs : ℕ

/-- A waiter for an ack, whose timer rejects it. -/
structure AckWaiter where
  timeoutMs : ℕ
  /-- When the timer may fire. -/
  deadline : ℕ

/-- The longest delay of a timer; one with a longer delay fires at once. -/
def TIMEOUT_MAX : ℕ := 2147483647

/-- The delay of `setTimeout`. -/
def timerDelay (ms : ℕ) : ℕ := if ms = 0 ∨ TIMEOUT_MAX < ms then 1 else ms

/-- Where `evaluateConcurrencyGroupIfPresent` is. -/
inductive HandshakePoint
  /-- The group function is evaluated. -/
  | group
  | firstAck
  | secondAck
  | proceeded
  /-- The job has failed, and the process is gone. -/
  | exited
  deriving DecidableEq

structure Handshake where
  point : HandshakePoint
  now : ℕ := 0
  pendingConcurrencyAck : Option AckWaiter := none
  /-- What the promise that is awaited was settled with, until the code that awaits it goes on. -/
  settled : Option (Except JsString ConcurrencyAck) := none
  /-- The messages that are on their way, and those of the chunk that is read. -/
  stdin : List AgentToRunnerMessage := []
  chunk : List AgentToRunnerMessage := []
  sent : List RunnerToAgentMessage := []
  /-- The acks of the orchestrator, with the time when each was sent. -/
  answers : List (ConcurrencyAck × ℕ) := []
  /-- When the waits began. -/
  waits : List ℕ := []
  /-- The acks that were delivered, each with the wait that it was delivered to. -/
  delivered : List (HandshakePoint × ConcurrencyAck) := []
  dropped : List ConcurrencyAck := []

namespace Handshake

variable (timeouts : ConcurrencyTimeouts) (s : Handshake)

def log (line : JsString) : RunnerToAgentMessage := .logLine (-1) line none

/-- `process.exit(1)`, after the messages that fail the job. -/
def exit (line error : JsString) : Handshake :=
  { s with
    point := .exited
    settled := none
    sent := s.sent ++ [log line, .jobComplete { status := .failed, error := some error }] }

/-- `waitForConcurrencyAck`. -/
def waitForConcurrencyAck (point : HandshakePoint) (timeoutMs : ℕ) : Handshake :=
  { s with
    point
    settled := none
    pendingConcurrencyAck := some ⟨timeoutMs, s.now + timerDelay timeoutMs⟩
    waits := s.waits ++ [s.now] }

/-- The timer of a waiter fires. -/
def expire (waiter : AckWaiter) : Handshake :=
  { s with
    pendingConcurrencyAck := none
    settled := some (.error
      (js "Concurrency group ack timed out after " ++ js (toString waiter.timeoutMs) ++ js "ms")) }

/-- An ack is for the waiter, if there is one. -/
def dispatchAck (ack : ConcurrencyAck) : Handshake :=
  match s.pendingConcurrencyAck with
  | some _ => { s with
      pendingConcurrencyAck := none
      settled := some (.ok ack)
      delivered := s.delivered ++ [(s.point, ack)] }
  | none => { s with dropped := s.dropped ++ [ack] }

def dispatchAgentMessage : AgentToRunnerMessage → Handshake
  | .concurrencyAck ack => s.dispatchAck ack
  | .other => s

def evaluationFailed (message : JsString) : Handshake :=
  s.exit (js "[kici] [error] Concurrency group evaluation failed: " ++ message)
    (js "Concurrency group evaluation failed: " ++ message)

def cancelled (ack : ConcurrencyAck) : Handshake :=
  s.exit (js "[kici] Concurrency: cancelled" ++ (ack.reason.map fun r => js " (" ++ r ++ js ")").getD [])
    (js "Cancelled by concurrency policy" ++ (ack.reason.map fun r => js ": " ++ r).getD [])

/-- The job goes on. -/
def proceed (line : JsString) : Handshake :=
  { s with point := .proceeded, settled := none, sent := s.sent ++ [log line] }

/-- The group function has returned the key, or failed, or timed out. -/
def evaluated : Except JsString JsString → Handshake
  | .ok groupKey =>
    { s with sent := s.sent ++ [log (js "[kici] Concurrency group: " ++ groupKey),
      .concurrencyReport groupKey] }
      |>.waitForConcurrencyAck .firstAck timeouts.concurrencyTimeoutMs
  | .error message => s.evaluationFailed message

/-- The code after the first wait goes on. -/
def afterFirst : Except JsString ConcurrencyAck → Handshake
  | .error message => s.evaluationFailed message
  | .ok ack =>
    match ack.action with
    | .proceed => s.proceed (js "[kici] Concurrency: proceeding with execution")
    | .wait =>
      { s with sent := s.sent ++ [log (js "[kici] Concurrency: queued" ++
          (ack.reason.map fun r => js " (" ++ r ++ js ")").getD [] ++ js ", waiting for slot to free")] }
        |>.waitForConcurrencyAck .secondAck timeouts.waitCapMs
    | .cancel => s.cancelled ack

/-- The code after the second wait goes on. -/
def afterSecond : Except JsString ConcurrencyAck → Handshake
  | .error message => s.exit (js "[kici] [error] Concurrency wait timed out: " ++ message)
      (js "Concurrency wait timed out after " ++ js (toString timeouts.waitCapMs) ++
        js "ms: " ++ message)
  | .ok ack =>
    match ack.action with
    | .proceed => s.proceed (js "[kici] Concurrency: slot acquired, proceeding with execution")
    | .wait => s.exit (js "[kici] [error] Concurrency: unexpected second `wait` ack; aborting")
        (js "Concurrency: unexpected second wait ack")
    | .cancel => s.cancelled ack

end Handshake

inductive HandshakeAction
  | evaluated (result : Except JsString JsString)
  /-- The orchestrator sends an ack. -/
  | answer (ack : ConcurrencyAck)
  /-- Another message is on its way. -/
  | other
  /-- A chunk with the next messages is read. -/
  | read (n : ℕ)
  /-- The next message of the chunk is dispatched. -/
  | dispatch
  /-- The code that awaits an ack goes on. -/
  | resume
  | expire
  | elapse (ms : ℕ)

namespace Handshake

/-- Whether the orchestrator sends an ack: it answers the report, and, if it had the runner wait,
once more. -/
def answerable (s : Handshake) (ack : ConcurrencyAck) : Bool :=
  match s.answers with
  | [] => s.waits ≠ []
  | [(first, _)] => first.action = .wait ∧ ack.action ≠ .wait
  | _ => false

/-- A step. Microtasks run before the next chunk is read and before timers. -/
def step (timeouts : ConcurrencyTimeouts) (s : Handshake) : HandshakeAction → Option Handshake
  | .evaluated result => if s.point = .group then some (s.evaluated timeouts result) else none
  | .answer ack =>
    if s.answerable ack then
      some { s with answers := s.answers ++ [(ack, s.now)], stdin := s.stdin ++ [.concurrencyAck ack] }
    else none
  | .other => some { s with stdin := s.stdin ++ [.other] }
  | .read n =>
    if s.chunk = [] ∧ s.settled.isNone then
      some { s with chunk := s.stdin.take n, stdin := s.stdin.drop n }
    else none
  | .dispatch =>
    match s.chunk with
    | [] => none
    | msg :: chunk => some ({ s with chunk }.dispatchAgentMessage msg)
  | .resume =>
    if s.chunk = [] then
      match s.settled, s.point with
      | some result, .firstAck => some (s.afterFirst timeouts result)
      | some result, .secondAck => some (s.afterSecond timeouts result)
      | _, _ => none
    else none
  | .expire =>
    match s.pendingConcurrencyAck with
    | some waiter =>
      if s.chunk = [] ∧ s.settled.isNone ∧ waiter.deadline ≤ s.now then some (s.expire waiter) else none
    | none => none
  | .elapse ms => some { s with now := s.now + ms }

end Handshake

/-- The handshake of a runner; a workflow without a concurrency group proceeds at once. -/
def handshakeSystem (timeouts : ConcurrencyTimeouts) : System Handshake HandshakeAction where
  init := {s | ∃ hasGroup : Bool, s = { point := if hasGroup then .group else .proceeded }}
  step := Handshake.step timeouts

end Kici
