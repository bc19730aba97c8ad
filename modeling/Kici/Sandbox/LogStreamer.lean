import Kici.Foundation.Logs
import Kici.Sandbox.Messages

/-!
# The stream of a step's log

An agent sends the lines of a step in chunks (`LogStreamer`). Lines wait in a buffer; when the
socket has too much to send, the buffer is dropped, and the number of its lines is told instead, or
it is kept until the socket has drained, for thirty seconds at most. Past the limit of a step's log
a notice takes the place of all further lines.

A streamer that is paused has a timer that resumes it, and a drain listener where there are such
(`LogStreamer.Armed.step`).
-/

namespace Kici

open Ipc (LogStream)

deriving instance DecidableEq for LogStream

/-- The bytes in the send buffer of the socket from which on it counts as full. -/
def BACKPRESSURE_THRESHOLD : ℕ := 1048576

inductive BackpressureMode
  | pause
  | drop
  deriving DecidableEq

structure LogStreamerOptions where
  maxLogSizeBytes : ℕ := 10 * 1024 * 1024
  flushLineThreshold : ℕ := 50
  /-- `getBufferedAmount` is given. -/
  readsBufferedAmount : Bool := true
  backpressureMode : BackpressureMode := .pause
  /-- `onWsDrain` is given. -/
  listensToDrain : Bool := true

/-- A line of a chunk: of the step, or the number of lines that were dropped, or the notice that the
log ends here. -/
inductive LogEntry
  | told (t : Tally JsString)
  | truncated
  deriving DecidableEq

/-- The text of a line of a chunk. -/
def LogEntry.text (o : LogStreamerOptions) : LogEntry → JsString
  | told (.item line) => line
  | told (.skipped count) => js "[" ++ js (toString count) ++ js " lines dropped due to backpressure]"
  | truncated => js "[TRUNCATED: log output exceeded " ++ js (toString o.maxLogSizeBytes) ++ js " bytes]"

structure AgentLogChunk where
  lines : List LogEntry
  stream : LogStream

/-- The streamer of a step, with the lines that it has been given. -/
structure LogStreamer where
  buffer : List LogEntry := []
  /-- A timer of the streamer is armed. -/
  flushTimer : Bool := false
  totalBytes : ℕ := 0
  truncated : Bool := false
  bufferStream : LogStream := .stdout
  droppedCount : ℕ := 0
  paused : Bool := false
  dropping : Bool := false
  pauseSafetyTimer : Bool := false
  /-- The drain listeners that have not fired yet. -/
  drainListeners : ℕ := 0
  sent : List AgentLogChunk := []
  /-- The lines that were taken, and those that were refused. -/
  accepted : List JsString := []
  refused : List JsString := []

namespace LogStreamer

variable (o : LogStreamerOptions) (s : LogStreamer)

/-! ## Sending -/

/-- The line that tells of the lines dropped, if there are any. -/
def dropMarker : List (Tally JsString) := if 0 < s.droppedCount then [.skipped s.droppedCount] else []

def buildLinesWithDropMarker : List LogEntry × LogStreamer :=
  (s.dropMarker.map .told ++ s.buffer,
    { s with buffer := [], droppedCount := 0, dropping := s.dropping && s.droppedCount = 0 })

/-- Send the lines of the buffer. -/
def sendChunk : LogStreamer :=
  let (lines, s) := s.buildLinesWithDropMarker
  { s with sent := s.sent ++ [⟨lines, s.bufferStream⟩] }

def clearTimer : LogStreamer := { s with flushTimer := false }

def clearPauseSafetyTimer : LogStreamer := { s with pauseSafetyTimer := false }

def registerDrainResume : LogStreamer :=
  { s with
    drainListeners := if o.listensToDrain then s.drainListeners + 1 else s.drainListeners
    pauseSafetyTimer := true }

/-- Count the lines of the buffer as dropped. -/
def dropBuffer : LogStreamer := { s with droppedCount := s.droppedCount + s.buffer.length, buffer := [] }

/-- Whether the socket has too much to send, by the reading of its buffer. -/
def isOver (bufferedAmount : ℕ) : Bool :=
  o.readsBufferedAmount && BACKPRESSURE_THRESHOLD < bufferedAmount

def flush (bufferedAmount : ℕ) : LogStreamer :=
  if s.buffer = [] then s
  else
    let s := s.clearTimer
    if isOver o bufferedAmount then
      match o.backpressureMode with
      | .drop => { s with dropping := true }.dropBuffer
      -- The buffer stays until the socket has drained.
      | .pause => if s.paused then s else { s with paused := true }.registerDrainResume o
    else s.sendChunk

/-- The remaining lines are sent, whatever the socket has to send. -/
def forceSend : LogStreamer :=
  if s.buffer = [] ∧ s.droppedCount = 0 then s else s.sendChunk

def destroy : LogStreamer := s.forceSend.clearTimer.clearPauseSafetyTimer

/-- The socket has drained. -/
def resume (bufferedAmount : ℕ) : LogStreamer :=
  { s.clearPauseSafetyTimer with paused := false }.flush o bufferedAmount

/-- The socket has not drained in time. -/
def safetyTimeout : LogStreamer :=
  let s := { s with pauseSafetyTimer := false }
  if s.paused then { s.dropBuffer with paused := false } else s

/-! ## Lines -/

def scheduleFlush : LogStreamer := { s with flushTimer := true }

/-- The number of bytes of a line. -/
def byteLength (line : JsString) : ℕ := (encode line).length

/-- Put a line into the buffer. -/
def pushLine (line : JsString) : LogStreamer :=
  { s with
    buffer := s.buffer ++ [.told (.item line)]
    totalBytes := s.totalBytes + byteLength line
    accepted := s.accepted ++ [line] }

/-- Put the notice into the buffer, in the place of a line. -/
def pushNotice (line : JsString) : LogStreamer :=
  { s with buffer := s.buffer ++ [.truncated], truncated := true, refused := s.refused ++ [line] }

/-- Only an empty buffer is for another stream from now on. -/
def tagBuffer (stream : LogStream) : LogStreamer :=
  if s.buffer = [] then { s with bufferStream := stream } else s

/-- The buffer before a line comes: one of another stream is closed first. -/
def switchStream (stream : LogStream) (bufferedAmount : ℕ) : LogStreamer :=
  (if s.buffer ≠ [] ∧ stream ≠ s.bufferStream then s.flush o bufferedAmount else s).tagBuffer stream

/-- A line comes; each flush that it leads to reads the buffer of the socket. -/
def addLine (line : JsString) (stream : LogStream) (bufferedAmount bufferedAmount' : ℕ) : LogStreamer :=
  if s.truncated then { s with refused := s.refused ++ [line] }
  else
    let s := s.switchStream o stream bufferedAmount
    if o.maxLogSizeBytes ≤ s.totalBytes then (s.pushNotice line).flush o bufferedAmount'
    else
      let s := s.pushLine line
      if o.flushLineThreshold ≤ s.buffer.length then s.flush o bufferedAmount' else s.scheduleFlush

end LogStreamer

inductive StreamerAction
  | addLine (line : JsString) (stream : LogStream) (bufferedAmount bufferedAmount' : ℕ)
  /-- A call from outside. -/
  | flush (bufferedAmount : ℕ)
  | flushTimer (bufferedAmount : ℕ)
  /-- A drain listener fires, of this pause or of an earlier one. -/
  | drain (bufferedAmount : ℕ)
  | safetyTimeout

namespace LogStreamer

def step (o : LogStreamerOptions) (s : LogStreamer) : StreamerAction → Option LogStreamer
  | .addLine line stream bufferedAmount bufferedAmount' =>
    some (s.addLine o line stream bufferedAmount bufferedAmount')
  | .flush bufferedAmount => some (s.flush o bufferedAmount)
  | .flushTimer bufferedAmount =>
    if s.flushTimer then some ({ s with flushTimer := false }.flush o bufferedAmount) else none
  | .drain bufferedAmount =>
    if 0 < s.drainListeners then some
      ({ s with drainListeners := s.drainListeners - 1 }.resume o bufferedAmount)
    else none
  | .safetyTimeout => if s.pauseSafetyTimer then some s.safetyTimeout else none

end LogStreamer

def streamerSystem (o : LogStreamerOptions) : System LogStreamer StreamerAction where
  init := {s | s = {}}
  step := LogStreamer.step o

namespace LogStreamer

variable {o : LogStreamerOptions} {s t : LogStreamer} {bufferedAmount : ℕ} {stream : LogStream}

/-! ## Pauses -/

/-- A streamer that is paused has a timer, and a listener where there are such; one that is not has
no timer. -/
structure Armed (o : LogStreamerOptions) (s : LogStreamer) : Prop where
  timer : s.pauseSafetyTimer = s.paused
  listener : s.paused = true → o.listensToDrain = true → 0 < s.drainListeners

/-- A flush leaves pauses as they are, or starts one. -/
theorem Armed.flush (h : s.Armed o) : (s.flush o bufferedAmount).Armed o := by
  unfold LogStreamer.flush
  split
  · exact h
  dsimp only
  split
  · split
    · exact ⟨h.timer, h.listener⟩
    · split
      · exact ⟨h.timer, h.listener⟩
      · refine ⟨rfl, fun _ hlistens => ?_⟩
        simp [registerDrainResume, hlistens]
  · exact ⟨h.timer, h.listener⟩

theorem Armed.of_not_paused (h : s.paused = false) (htimer : s.pauseSafetyTimer = false) : s.Armed o :=
  ⟨htimer.trans h.symm, fun hpaused => by cases h.symm.trans hpaused⟩

theorem Armed.tagBuffer (h : s.Armed o) : (s.tagBuffer stream).Armed o := by
  unfold LogStreamer.tagBuffer
  split
  · exact ⟨h.timer, h.listener⟩
  · exact h

theorem Armed.switchStream (h : s.Armed o) : (s.switchStream o stream bufferedAmount).Armed o := by
  unfold LogStreamer.switchStream
  split
  · exact h.flush.tagBuffer
  · exact h.tagBuffer

theorem Armed.addLine {line : JsString} {bufferedAmount' : ℕ} (h : s.Armed o) :
    (s.addLine o line stream bufferedAmount bufferedAmount').Armed o := by
  unfold LogStreamer.addLine
  split
  · exact ⟨h.timer, h.listener⟩
  have hswitched : (s.switchStream o stream bufferedAmount).Armed o := h.switchStream
  dsimp only
  split
  · have hpushed : ((s.switchStream o stream bufferedAmount).pushNotice line).Armed o :=
      ⟨hswitched.timer, hswitched.listener⟩
    exact hpushed.flush
  · have hpushed : ((s.switchStream o stream bufferedAmount).pushLine line).Armed o :=
      ⟨hswitched.timer, hswitched.listener⟩
    split
    · exact hpushed.flush
    · exact ⟨hpushed.timer, hpushed.listener⟩

theorem Armed.step {a : StreamerAction} (h : s.Armed o) (hstep : s.step o a = some t) : t.Armed o := by
  cases a with
  | addLine line stream bufferedAmount bufferedAmount' =>
    cases hstep
    exact h.addLine
  | flush bufferedAmount =>
    cases hstep
    exact h.flush
  | flushTimer bufferedAmount =>
    obtain ⟨-, ⟨⟩⟩ := Option.ite_none_right_eq_some.1 hstep
    have hfired : Armed o { s with flushTimer := false } := ⟨h.timer, h.listener⟩
    exact hfired.flush
  | drain bufferedAmount =>
    obtain ⟨-, ⟨⟩⟩ := Option.ite_none_right_eq_some.1 hstep
    exact (Armed.of_not_paused rfl rfl).flush
  | safetyTimeout =>
    obtain ⟨-, ⟨⟩⟩ := Option.ite_none_right_eq_some.1 hstep
    unfold LogStreamer.safetyTimeout
    dsimp only
    split
    · exact Armed.of_not_paused rfl rfl
    · next hpaused => exact Armed.of_not_paused (Bool.eq_false_iff.2 hpaused) rfl

end LogStreamer

end Kici
