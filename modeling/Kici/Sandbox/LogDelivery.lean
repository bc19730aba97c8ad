import Kici.Sandbox.LogStreamer

/-!
# What arrives of a log

Whatever the socket has to send, the lines that a streamer has sent in the end account for those
that it has taken, each in its place or counted as dropped, and are followed by the notice if a line
was refused (`Log.Delivered`) — unless the notice itself was dropped with the buffer. It is then
counted like a line of the step, and not sent again (`exists_log_without_notice`). So a log is
delivered exactly if no step of the run drops the notice (`delivered_iff_keepsNotice`).
-/

namespace Kici

open List Option

open Ipc (LogStream)

/-- What a streamer has sent of its log, and what it has yet to send. -/
structure Log where
  entries : List LogEntry
  buffer : List LogEntry
  droppedCount : ℕ
  truncated : Bool
  accepted : List JsString
  refused : List JsString

namespace Log

variable (l : Log)

/-! ## Changes of a log -/

def dropMarker : List (Tally JsString) := if 0 < l.droppedCount then [.skipped l.droppedCount] else []

/-- The buffer is sent. -/
def send : Log :=
  { l with entries := l.entries ++
    (l.dropMarker.map .told ++ l.buffer), buffer := [], droppedCount := 0 }

/-- The buffer is dropped. -/
def drop : Log := { l with droppedCount := l.droppedCount + l.buffer.length, buffer := [] }

def push (line : JsString) : Log :=
  { l with buffer := l.buffer ++ [.told (.item line)], accepted := l.accepted ++ [line] }

/-- The notice comes in the place of a line. -/
def truncate (line : JsString) : Log :=
  { l with buffer := l.buffer ++ [.truncated], truncated := true, refused := l.refused ++ [line] }

/-- A line after the notice. -/
def refuse (line : JsString) : Log := { l with refused := l.refused ++ [line] }

/-! ## Accounts -/

/-- The lines sent account for those taken, and are followed by one notice if a line was refused. -/
def Delivered : Prop :=
  ∃ told, Accounts told l.accepted ∧ l.entries = told.map .told ++ if l.refused = [] then []
    else [.truncated]

/-- The lines taken were sent, dropped or are in the buffer, and the notice is there too. -/
structure Waiting (told : List (Tally JsString)) (lines : List JsString) : Prop where
  entries : l.entries = told.map .told
  buffer : l.buffer = (lines.map .item).map .told ++ if l.truncated then [.truncated] else []
  accounts : Accounts (told ++ (l.dropMarker ++ lines.map .item)) l.accepted

/-- All was sent, with the notice. -/
structure Ended (told : List (Tally JsString)) : Prop where
  truncated : l.truncated = true
  entries : l.entries = told.map .told ++ [.truncated]
  buffer : l.buffer = []
  droppedCount : l.droppedCount = 0
  accounts : Accounts told l.accepted

def Intact : Prop := (∃ told lines, l.Waiting told lines) ∨ ∃ told, l.Ended told

/-- The notice was dropped. -/
structure Lost : Prop where
  truncated : l.truncated = true
  entries : .truncated ∉ l.entries
  buffer : .truncated ∉ l.buffer

variable {l} {told : List (Tally JsString)} {lines : List JsString} {line : JsString}

theorem truncated_notMem_told (told : List (Tally JsString)) : LogEntry.truncated ∉ told.map .told := by
  intro h
  obtain ⟨t, -, ht⟩ := List.mem_map.1 h
  cases ht

/-- The notice is in the buffer of a log that waits, once a line was refused. -/
theorem Waiting.mem_buffer_iff (h : l.Waiting told lines) : .truncated ∈ l.buffer ↔ l.truncated := by
  rw [h.buffer, mem_append]
  constructor
  · rintro (hmem | hmem)
    · exact absurd hmem (truncated_notMem_told _)
    · by_contra hnot
      rw [if_neg hnot] at hmem
      cases hmem
  · intro htruncated
    exact .inr (by simp [htruncated])

theorem sum_weight_dropMarker (l : Log) : (l.dropMarker.map Tally.weight).sum = l.droppedCount := by
  rw [dropMarker]
  split
  · rfl
  · next hzero => exact (Nat.eq_zero_of_not_pos hzero).symm

theorem sum_weight_items (lines : List JsString) : ((lines.map Tally.item).map Tally.weight).sum =
    lines.length := by
  induction lines with
  | nil => rfl
  | cons line lines ih =>
    rw [map_cons, map_cons, sum_cons, ih, length_cons, Tally.weight, add_comm]

theorem Intact.send (h : l.Intact) : l.send.Intact := by
  rcases h with ⟨told, lines, h⟩ | ⟨told, h⟩
  · by_cases htruncated : l.truncated
    · refine .inr ⟨told ++ (l.dropMarker ++ lines.map .item), htruncated, ?_, rfl, rfl, h.accounts⟩
      simp [Log.send, h.entries, h.buffer, htruncated]
    · refine .inl ⟨told ++ (l.dropMarker ++ lines.map .item), [], ?_, ?_, ?_⟩
      · simp [Log.send, h.entries, h.buffer, htruncated]
      · simp [Log.send, htruncated]
      · simpa [Log.send, Log.dropMarker] using h.accounts
  · refine .inr ⟨told, h.truncated, ?_, rfl, rfl, h.accounts⟩
    simp [Log.send, h.entries, h.buffer, h.droppedCount, Log.dropMarker]

/-- Lines that are dropped are counted, if the notice is not among them. -/
theorem Intact.drop (h : l.Intact) (hnotice : .truncated ∉ l.buffer) : l.drop.Intact := by
  rcases h with ⟨told, lines, h⟩ | ⟨told, h⟩
  · have htruncated : l.truncated = false := by
      by_contra htruncated
      exact hnotice (h.mem_buffer_iff.2 (Bool.eq_true_of_not_eq_false htruncated))
    have hlength : l.buffer.length = lines.length := by simp [h.buffer, htruncated]
    refine .inl ⟨told, [], h.entries, by simp [Log.drop, htruncated], ?_⟩
    rcases Nat.eq_zero_or_pos (l.droppedCount + l.buffer.length) with hzero | hpos
    · -- There was nothing to drop.
      have hlines : lines = [] := length_eq_zero_iff.1 (by omega)
      have hcount : l.droppedCount = 0 := by omega
      have hbuffer : l.buffer.length = 0 := by omega
      simpa [Log.drop, Log.dropMarker, hlines, hcount, hbuffer] using h.accounts
    · have hskip := h.accounts.skip
      rw [map_append, sum_append, sum_weight_dropMarker, sum_weight_items, ← hlength] at hskip
      simpa [Log.drop, Log.dropMarker, hpos] using hskip
  · refine .inr ⟨told, h.truncated, h.entries, rfl, ?_, h.accounts⟩
    rw [Log.drop, h.droppedCount, h.buffer, length_nil]

/-- The notice is dropped with the buffer that it is in. -/
theorem Intact.lost_drop (h : l.Intact) (hnotice : .truncated ∈ l.buffer) : l.drop.Lost := by
  rcases h with ⟨told, lines, h⟩ | ⟨told, h⟩
  · refine ⟨h.mem_buffer_iff.1 hnotice, ?_, not_mem_nil⟩
    rw [Log.drop, h.entries]
    exact truncated_notMem_told told
  · rw [h.buffer] at hnotice
    cases hnotice

/-- The notice is in no buffer before a line was refused. -/
theorem Intact.notMem_buffer (h : l.Intact) (htruncated : l.truncated = false) :
    .truncated ∉ l.buffer := by
  rcases h with ⟨told, lines, h⟩ | ⟨told, h⟩
  · rw [h.mem_buffer_iff, htruncated]
    exact Bool.false_ne_true
  · cases htruncated.symm.trans h.truncated

theorem Intact.push (h : l.Intact) (htruncated : l.truncated = false) : (l.push line).Intact := by
  rcases h with ⟨told, lines, h⟩ | ⟨told, h⟩
  · refine .inl ⟨told, lines ++ [line], h.entries, ?_, ?_⟩
    · simp [Log.push, h.buffer, htruncated]
    · have hconcat := h.accounts.concat line
      rw [append_assoc, append_assoc] at hconcat
      rw [map_append]
      exact hconcat
  · cases htruncated.symm.trans h.truncated

theorem Intact.truncate (h : l.Intact) (htruncated : l.truncated = false) :
    (l.truncate line).Intact := by
  rcases h with ⟨told, lines, h⟩ | ⟨told, h⟩
  · refine .inl ⟨told, lines, h.entries, ?_, h.accounts⟩
    simp [Log.truncate, h.buffer, htruncated]
  · cases htruncated.symm.trans h.truncated

theorem Intact.refuse (h : l.Intact) : (l.refuse line).Intact := by
  rcases h with ⟨told, lines, h⟩ | ⟨told, h⟩
  · exact .inl ⟨told, lines, h.entries, h.buffer, h.accounts⟩
  · exact .inr ⟨told, h.truncated, h.entries, h.buffer, h.droppedCount, h.accounts⟩

theorem Lost.send (h : l.Lost) : l.send.Lost := by
  refine ⟨h.truncated, ?_, not_mem_nil⟩
  rw [Log.send, mem_append, mem_append]
  rintro (hmem | hmem | hmem)
  · exact h.entries hmem
  · exact truncated_notMem_told _ hmem
  · exact h.buffer hmem

theorem Lost.drop (h : l.Lost) : l.drop.Lost := ⟨h.truncated, h.entries, not_mem_nil⟩

theorem Lost.refuse (h : l.Lost) : (l.refuse line).Lost := ⟨h.truncated, h.entries, h.buffer⟩

/-! ## The end of a log -/

/-- What is left is sent, if there is anything. -/
def finish (l : Log) : Log := if l.buffer = [] ∧ l.droppedCount = 0 then l else l.send

theorem Intact.finish (h : l.Intact) : l.finish.Intact := by
  rw [Log.finish]
  split
  · exact h
  · exact h.send

theorem Lost.finish (h : l.Lost) : l.finish.Lost := by
  rw [Log.finish]
  split
  · exact h
  · exact h.send

/-- Nothing is left in the end. -/
theorem finish_left (l : Log) : l.finish.buffer = [] ∧ l.finish.droppedCount = 0 := by
  rw [finish]
  split
  · assumption
  · exact ⟨rfl, rfl⟩

theorem finish_truncated (l : Log) : l.finish.truncated = l.truncated ∧
    l.finish.refused = l.refused := by
  rw [finish]
  split <;> exact ⟨rfl, rfl⟩

/-- The notice is for lines that were refused. -/
def Refuses (l : Log) : Prop := l.truncated = true ↔ l.refused ≠ []

theorem Intact.delivered (h : l.Intact) (hrefuses : l.Refuses) : l.finish.Delivered := by
  obtain ⟨hbuffer, hcount⟩ := l.finish_left
  have hrefuses' : l.finish.truncated ↔ l.finish.refused ≠ [] := by
    rw [l.finish_truncated.1, l.finish_truncated.2]
    exact hrefuses
  rcases h.finish with ⟨told, lines, h⟩ | ⟨told, h⟩
  · have hempty := h.buffer.symm.trans hbuffer
    rw [append_eq_nil_iff, map_eq_nil_iff, map_eq_nil_iff] at hempty
    obtain ⟨rfl, hnotice⟩ := hempty
    have hrefused : l.finish.refused = [] := by
      by_contra hrefused
      rw [if_pos (hrefuses'.2 hrefused)] at hnotice
      cases hnotice
    refine ⟨told, ?_, ?_⟩
    · simpa [dropMarker, hcount] using h.accounts
    · rw [hrefused, if_pos rfl, append_nil, h.entries]
  · refine ⟨told, h.accounts, ?_⟩
    rw [if_neg (hrefuses'.1 h.truncated), h.entries]

theorem Lost.not_delivered (h : l.Lost) (hrefuses : l.Refuses) : ¬ l.finish.Delivered := by
  rintro ⟨told, -, hentries⟩
  have hrefused : l.finish.refused ≠ [] := by
    rw [l.finish_truncated.2]
    exact hrefuses.1 h.truncated
  refine h.finish.entries ?_
  rw [hentries, if_neg hrefused]
  exact mem_append_right _ (mem_singleton_self _)

end Log

namespace LogStreamer

variable {o : LogStreamerOptions} {s t : LogStreamer} {bufferedAmount : ℕ} {a : StreamerAction}

/-! ## The log of a streamer -/

def log (s : LogStreamer) : Log where
  entries := s.sent.flatMap (·.lines)
  buffer := s.buffer
  droppedCount := s.droppedCount
  truncated := s.truncated
  accepted := s.accepted
  refused := s.refused

theorem log_sendChunk : s.sendChunk.log = s.log.send := by
  simp only [log, sendChunk, buildLinesWithDropMarker, flatMap_append, flatMap_singleton]
  rfl

theorem log_destroy : s.destroy.log = s.log.finish := by
  have hforce : s.destroy.log = s.forceSend.log := rfl
  rw [hforce, forceSend]
  split
  · next hempty => exact (if_pos hempty).symm
  · next hleft => exact log_sendChunk.trans (if_neg hleft).symm

/-- A flush does nothing to the log, or it sends the buffer or drops it. -/
theorem log_flush_cases (o : LogStreamerOptions) (s : LogStreamer) (bufferedAmount : ℕ) :
    ((s.flush o bufferedAmount).log = s.log ∧ (s.buffer = [] ∨ o.backpressureMode = .pause)) ∨
    (isOver o bufferedAmount = false ∧ (s.flush o bufferedAmount).log = s.log.send) ∨
    (o.backpressureMode = .drop ∧ isOver o bufferedAmount ∧
      (s.flush o bufferedAmount).log = s.log.drop) := by
  unfold flush
  split
  · next hempty => exact .inl ⟨rfl, .inl hempty⟩
  dsimp only
  split
  · next hover =>
    split
    · next hmode => exact .inr (.inr ⟨hmode, hover, rfl⟩)
    · next hmode =>
      refine .inl ⟨?_, .inr hmode⟩
      split <;> rfl
  · next hover => exact .inr (.inl ⟨Bool.eq_false_iff.2 hover, log_sendChunk⟩)

theorem log_tagBuffer {stream : LogStream} : (s.tagBuffer stream).log = s.log := by
  rw [tagBuffer]
  split <;> rfl

/-- What a flush does not touch. -/
theorem flush_keeps : (s.flush o bufferedAmount).totalBytes = s.totalBytes ∧
    (s.flush o bufferedAmount).truncated = s.truncated := by
  unfold flush
  split
  · exact ⟨rfl, rfl⟩
  dsimp only
  split
  · split
    · exact ⟨rfl, rfl⟩
    · split <;> exact ⟨rfl, rfl⟩
  · exact ⟨rfl, rfl⟩

theorem switchStream_keeps (o : LogStreamerOptions) (s : LogStreamer) (stream : LogStream)
    (bufferedAmount : ℕ) : (s.switchStream o stream bufferedAmount).totalBytes = s.totalBytes ∧
      (s.switchStream o stream bufferedAmount).truncated = s.truncated := by
  have htag : ∀ r : LogStreamer, (r.tagBuffer stream).totalBytes = r.totalBytes ∧
      (r.tagBuffer stream).truncated = r.truncated := by
    intro r
    rw [tagBuffer]
    split <;> exact ⟨rfl, rfl⟩
  rw [switchStream, (htag _).1, (htag _).2]
  split
  · exact flush_keeps
  · exact ⟨rfl, rfl⟩

/-! ## The notice -/

/-- The step does not drop the notice: where buffers are dropped, the line that is refused first
does not find the socket with too much to send; where they are kept, the thirty seconds are not over
while the notice waits. -/
def keepsNotice (o : LogStreamerOptions) (s : LogStreamer) : StreamerAction → Bool
  | .addLine _ _ _ bufferedAmount' =>
    ¬ (o.backpressureMode = .drop ∧ isOver o bufferedAmount' ∧ ¬ s.truncated ∧
      o.maxLogSizeBytes ≤ s.totalBytes)
  | .safetyTimeout => .truncated ∉ s.buffer
  | _ => true

/-- The notice is there exactly if a line was refused; where buffers are dropped, it does not wait
in one. -/
structure Consistent (o : LogStreamerOptions) (s : LogStreamer) : Prop where
  refuses : s.log.Refuses
  notWaiting : o.backpressureMode = .drop → .truncated ∉ s.log.buffer

/-- A flush in which no notice waits to be dropped. -/
theorem intact_flush (h : s.log.Intact) (hnotice : o.backpressureMode = .drop → isOver o bufferedAmount →
    .truncated ∉ s.log.buffer) : (s.flush o bufferedAmount).log.Intact := by
  rcases log_flush_cases o s bufferedAmount with ⟨hlog, -⟩ | ⟨-, hlog⟩ | ⟨hmode, hover, hlog⟩
  · rw [hlog]
    exact h
  · rw [hlog]
    exact h.send
  · rw [hlog]
    exact h.drop (hnotice hmode hover)

theorem lost_flush (h : s.log.Lost) : (s.flush o bufferedAmount).log.Lost := by
  rcases log_flush_cases o s bufferedAmount with ⟨hlog, -⟩ | ⟨-, hlog⟩ | ⟨-, -, hlog⟩
  · rw [hlog]
    exact h
  · rw [hlog]
    exact h.send
  · rw [hlog]
    exact h.drop

theorem consistent_flush (h : s.log.Refuses) : (s.flush o bufferedAmount).Consistent o := by
  rcases log_flush_cases o s bufferedAmount with ⟨hlog, hempty | hmode⟩ | ⟨-, hlog⟩ | ⟨-, -, hlog⟩
  · refine ⟨by rwa [hlog], fun _ => ?_⟩
    have hbuffer : s.log.buffer = [] := hempty
    rw [hlog, hbuffer]
    exact not_mem_nil
  · exact ⟨by rwa [hlog], fun hdrop => by cases hmode.symm.trans hdrop⟩
  · exact ⟨by rw [hlog]; exact h, fun _ => by rw [hlog]; exact not_mem_nil⟩
  · exact ⟨by rw [hlog]; exact h, fun _ => by rw [hlog]; exact not_mem_nil⟩

/-- Before a line comes, the buffer is as it is or flushed. -/
theorem log_switchStream (o : LogStreamerOptions) (s : LogStreamer) (stream : LogStream)
    (bufferedAmount : ℕ) : (s.switchStream o stream bufferedAmount).log = s.log ∨
      (s.switchStream o stream bufferedAmount).log = (s.flush o bufferedAmount).log := by
  rw [switchStream, log_tagBuffer]
  split
  · exact .inr rfl
  · exact .inl rfl

variable {stream : LogStream} {line : JsString} {bufferedAmount' : ℕ}

/-- A line that comes before the notice meets a log without it. -/
theorem intact_switchStream (h : s.log.Intact) (htruncated : s.truncated = false) :
    (s.switchStream o stream bufferedAmount).log.Intact := by
  rcases log_switchStream o s stream bufferedAmount with hlog | hlog
  · rw [hlog]
    exact h
  · rw [hlog]
    exact intact_flush h fun _ _ => h.notMem_buffer htruncated

/-- A line is refused, or its place is taken by the notice, or it is put into the buffer. -/
theorem addLine_cases (o : LogStreamerOptions) (s : LogStreamer) (line : JsString) (stream : LogStream)
    (bufferedAmount bufferedAmount' : ℕ) :
    (s.truncated ∧ (s.addLine o line stream bufferedAmount bufferedAmount').log = s.log.refuse line) ∨
    (s.truncated = false ∧ o.maxLogSizeBytes ≤ s.totalBytes ∧
      s.addLine o line stream bufferedAmount bufferedAmount' =
      ((s.switchStream o stream bufferedAmount).pushNotice line).flush o bufferedAmount') ∨
    (s.truncated = false ∧ ¬ o.maxLogSizeBytes ≤ s.totalBytes ∧
      (s.addLine o line stream bufferedAmount bufferedAmount' =
          ((s.switchStream o stream bufferedAmount).pushLine line).flush o bufferedAmount' ∨
        s.addLine o line stream bufferedAmount bufferedAmount' =
          ((s.switchStream o stream bufferedAmount).pushLine line).scheduleFlush)) := by
  unfold addLine
  split
  · next htruncated => exact .inl ⟨htruncated, rfl⟩
  · next htruncated =>
    rw [Bool.not_eq_true] at htruncated
    dsimp only
    rw [(switchStream_keeps o s stream bufferedAmount).1]
    split
    · next hlimit => exact .inr (.inl ⟨htruncated, hlimit, rfl⟩)
    · next hlimit =>
      refine .inr (.inr ⟨htruncated, hlimit, ?_⟩)
      split
      · exact .inl rfl
      · exact .inr rfl

/-! ## Steps -/

theorem Consistent.of_log_eq (h : s.Consistent o) (hlog : t.log = s.log) : t.Consistent o :=
  ⟨hlog ▸ h.refuses, fun hmode => hlog ▸ h.notWaiting hmode⟩

theorem Consistent.switchStream (h : s.Consistent o) :
    (s.switchStream o stream bufferedAmount).Consistent o := by
  have hflushed : (s.flush o bufferedAmount).Consistent o := consistent_flush h.refuses
  exact (log_switchStream o s stream bufferedAmount).elim h.of_log_eq hflushed.of_log_eq

theorem Consistent.addLine (h : s.Consistent o) :
    (s.addLine o line stream bufferedAmount bufferedAmount').Consistent o := by
  have hswitched : (s.switchStream o stream bufferedAmount).Consistent o := h.switchStream
  rcases addLine_cases o s line stream bufferedAmount bufferedAmount' with
    ⟨htruncated, hlog⟩ | ⟨-, -, heq⟩ | ⟨-, -, heq | heq⟩
  · refine ⟨?_, fun hmode => ?_⟩
    · rw [hlog]
      exact ⟨fun _ => by simp [Log.refuse], fun _ => htruncated⟩
    · rw [hlog]
      exact h.notWaiting hmode
  · rw [heq]
    exact consistent_flush ⟨fun _ => by simp [log, pushNotice], fun _ => rfl⟩
  · rw [heq]
    exact consistent_flush hswitched.refuses
  · rw [heq]
    refine ⟨hswitched.refuses, fun hmode hmem => ?_⟩
    rcases mem_append.1 hmem with hmem | hmem
    · exact hswitched.notWaiting hmode hmem
    · cases mem_singleton.1 hmem

theorem log_safetyTimeout : s.safetyTimeout.log = s.log ∨ s.safetyTimeout.log = s.log.drop := by
  unfold safetyTimeout
  dsimp only
  split
  · exact .inr rfl
  · exact .inl rfl

theorem Consistent.step (h : s.Consistent o) (hstep : s.step o a = some t) : t.Consistent o := by
  cases a with
  | addLine line stream bufferedAmount bufferedAmount' =>
    cases hstep
    exact h.addLine
  | flush bufferedAmount =>
    cases hstep
    exact consistent_flush h.refuses
  | flushTimer | drain =>
    obtain ⟨-, ⟨⟩⟩ := ite_none_right_eq_some.1 hstep
    exact consistent_flush h.refuses
  | safetyTimeout =>
    obtain ⟨-, ⟨⟩⟩ := ite_none_right_eq_some.1 hstep
    rcases log_safetyTimeout (s := s) with hlog | hlog
    · exact h.of_log_eq hlog
    · exact ⟨by rw [hlog]; exact h.refuses, fun _ => by rw [hlog]; exact not_mem_nil⟩

/-- A line that comes before the notice, and does not make it be dropped. -/
theorem intact_addLine (h : s.log.Intact)
    (hkeeps : s.keepsNotice o (.addLine line stream bufferedAmount bufferedAmount')) :
    (s.addLine o line stream bufferedAmount bufferedAmount').log.Intact := by
  have htruncated' := (switchStream_keeps o s stream bufferedAmount).2
  rcases addLine_cases o s line stream bufferedAmount bufferedAmount' with
    ⟨-, hlog⟩ | ⟨htruncated, hlimit, heq⟩ | ⟨htruncated, -, heq⟩
  · rw [hlog]
    exact h.refuse
  · rw [heq]
    have hswitched : (s.switchStream o stream bufferedAmount).log.Intact :=
      intact_switchStream h htruncated
    refine intact_flush (hswitched.truncate (htruncated'.trans htruncated)) fun hmode hover => ?_
    simp [keepsNotice, hmode, hover, htruncated, hlimit] at hkeeps
  · have hswitched : (s.switchStream o stream bufferedAmount).log.Intact :=
      intact_switchStream h htruncated
    have hpushed : ((s.switchStream o stream bufferedAmount).pushLine line).log.Intact :=
      hswitched.push (htruncated'.trans htruncated)
    rcases heq with heq | heq
    · rw [heq]
      exact intact_flush hpushed fun _ _ => hpushed.notMem_buffer (htruncated'.trans htruncated)
    · rw [heq]
      exact hpushed

/-- A step that does not drop the notice keeps the log. -/
theorem intact_step (h : s.log.Intact) (hs : s.Consistent o) (hstep : s.step o a = some t)
    (hkeeps : s.keepsNotice o a) : t.log.Intact := by
  cases a with
  | addLine line stream bufferedAmount bufferedAmount' =>
    cases hstep
    exact intact_addLine h hkeeps
  | flush bufferedAmount =>
    cases hstep
    exact intact_flush h fun hmode _ => hs.notWaiting hmode
  | flushTimer | drain =>
    obtain ⟨-, ⟨⟩⟩ := ite_none_right_eq_some.1 hstep
    exact intact_flush h fun hmode _ => hs.notWaiting hmode
  | safetyTimeout =>
    obtain ⟨-, ⟨⟩⟩ := ite_none_right_eq_some.1 hstep
    rcases log_safetyTimeout (s := s) with hlog | hlog
    · rw [hlog]
      exact h
    · rw [hlog]
      exact h.drop (of_decide_eq_true hkeeps)

/-- A step that drops the notice loses it. -/
theorem lost_of_not_keepsNotice (h : s.log.Intact) (harmed : s.Armed o) (hstep : s.step o a = some t)
    (hdrops : s.keepsNotice o a = false) : t.log.Lost := by
  cases a with
  | addLine line stream bufferedAmount bufferedAmount' =>
    cases hstep
    simp only [keepsNotice, decide_eq_false_iff_not, not_not, Bool.not_eq_true] at hdrops
    obtain ⟨hmode, hover, htruncated, hlimit⟩ := hdrops
    have hswitched : (s.switchStream o stream bufferedAmount).log.Intact :=
      intact_switchStream h htruncated
    have hnoticed : ((s.switchStream o stream bufferedAmount).pushNotice line).log.Intact :=
      hswitched.truncate ((switchStream_keeps o s stream bufferedAmount).2.trans htruncated)
    have hmem : LogEntry.truncated ∈
      ((s.switchStream o stream bufferedAmount).pushNotice line).log.buffer :=
      mem_append_right _ (mem_singleton_self _)
    rcases addLine_cases o s line stream bufferedAmount bufferedAmount' with
      ⟨htrue, -⟩ | ⟨-, -, heq⟩ | ⟨-, hroom, -⟩
    · cases htruncated.symm.trans htrue
    · rw [heq]
      -- The flush is the one that drops the buffer.
      rcases log_flush_cases o ((s.switchStream o stream bufferedAmount).pushNotice line)
        bufferedAmount' with
        ⟨-, hempty | hpause⟩ | ⟨hfree, -⟩ | ⟨-, -, hlog⟩
      · exact absurd (hempty ▸ hmem : LogEntry.truncated ∈ []) not_mem_nil
      · cases hmode.symm.trans hpause
      · cases hover.symm.trans hfree
      · rw [hlog]
        exact hnoticed.lost_drop hmem
    · exact absurd hlimit hroom
  | safetyTimeout =>
    obtain ⟨hfires, ⟨⟩⟩ := ite_none_right_eq_some.1 hstep
    have hpaused : s.paused := harmed.timer ▸ hfires
    have hlog : s.safetyTimeout.log = s.log.drop := by
      unfold safetyTimeout
      exact congrArg log (if_pos hpaused)
    rw [hlog]
    simp only [keepsNotice, decide_eq_false_iff_not, not_not] at hdrops
    exact h.lost_drop hdrops
  | flush | flushTimer | drain => cases hdrops

/-- What is lost stays lost. -/
theorem lost_step (h : s.log.Lost) (hstep : s.step o a = some t) : t.log.Lost := by
  cases a with
  | addLine line stream bufferedAmount bufferedAmount' =>
    cases hstep
    rcases addLine_cases o s line stream bufferedAmount bufferedAmount' with
      ⟨-, hlog⟩ | ⟨htruncated, -, -⟩ | ⟨htruncated, -, -⟩
    · rw [hlog]
      exact h.refuse
    · cases htruncated.symm.trans h.truncated
    · cases htruncated.symm.trans h.truncated
  | flush bufferedAmount =>
    cases hstep
    exact lost_flush h
  | flushTimer | drain =>
    obtain ⟨-, ⟨⟩⟩ := ite_none_right_eq_some.1 hstep
    exact lost_flush h
  | safetyTimeout =>
    obtain ⟨-, ⟨⟩⟩ := ite_none_right_eq_some.1 hstep
    rcases log_safetyTimeout (s := s) with hlog | hlog
    · rw [hlog]
      exact h
    · rw [hlog]
      exact h.drop

end LogStreamer

open LogStreamer

theorem destroy_keeps {s : LogStreamer} : s.destroy.paused = s.paused ∧
    s.destroy.drainListeners = s.drainListeners := by
  unfold destroy forceSend
  split <;> exact ⟨rfl, rfl⟩

/-! ## Runs -/

/-- What holds of a streamer in the course of a run, where `P` says what has become of the log. -/
structure OnCourse (P : Log → Prop) (o : LogStreamerOptions) (s : LogStreamer) : Prop where
  log : P s.log
  consistent : s.Consistent o
  armed : s.Armed o

/-- A streamer that is destroyed after a run has delivered its log if and only if no step of the run
dropped the notice. While it is paused it has a drain listener or a timer to resume it; in the end
the listener, where there are such. -/
theorem delivered_iff_keepsNotice (o : LogStreamerOptions) (as : List StreamerAction) (s : LogStreamer)
    (hrun : (streamerSystem o).run (fun _ _ => true) {} as = some s) :
    (s.destroy.log.Delivered ↔ ((streamerSystem o).run (keepsNotice o) {} as).isSome) ∧
    (s.paused → 0 < s.drainListeners ∨ s.pauseSafetyTimer) ∧
    (s.destroy.paused → o.listensToDrain → 0 < s.destroy.drainListeners) := by
  have hinit : OnCourse Log.Intact o {} :=
    ⟨.inl ⟨[], [], rfl, rfl, .nil⟩, ⟨by simp [Log.Refuses, LogStreamer.log], fun _ => not_mem_nil⟩,
      ⟨rfl, fun h => by cases h⟩⟩
  have hcases := System.run_cases (M := streamerSystem o) (P := OnCourse Log.Intact o)
    (N := OnCourse Log.Lost o)
    (fun s a t h hstep hkeeps =>
      ⟨intact_step h.log h.consistent hstep hkeeps, h.consistent.step hstep, h.armed.step hstep⟩)
    (fun s a t h hstep hdrops =>
      ⟨lost_of_not_keepsNotice h.log h.armed hstep hdrops, h.consistent.step hstep, h.armed.step hstep⟩)
    (fun s a t h hstep => ⟨lost_step h.log hstep, h.consistent.step hstep, h.armed.step hstep⟩)
      hinit hrun
  have harmed : s.Armed o := hcases.elim (fun h => h.2.armed) fun h => h.2.armed
  refine ⟨?_, fun hpaused => .inr (harmed.timer ▸ hpaused), fun hpaused hlistens => ?_⟩
  · rw [log_destroy]
    rcases hcases with ⟨hkept, h⟩ | ⟨hdropped, h⟩
    · exact iff_of_true (h.log.delivered h.consistent.refuses) hkept
    · exact iff_of_false (h.log.not_delivered h.consistent.refuses) hdropped
  · obtain ⟨hpaused', hlisteners⟩ := destroy_keeps (s := s)
    rw [hlisteners]
    exact harmed.listener (hpaused' ▸ hpaused) hlistens

/-- The line that is refused finds the socket with too much to send, and the notice waits until it
has drained. -/
theorem delivered_iff_keepsNotice_pause : ∃ s : LogStreamer,
    (streamerSystem { maxLogSizeBytes := 2 }).run (fun _ _ => true) {}
      [.addLine (js "ab") .stdout 0 0, .addLine (js "c") .stdout 0 2000000, .drain 0] = some s ∧
      s.destroy.log.Delivered :=
  ⟨_, rfl, (delivered_iff_keepsNotice { maxLogSizeBytes := 2 }
    [.addLine (js "ab") .stdout 0 0, .addLine (js "c") .stdout 0 2000000, .drain 0] _ rfl).1.2
      (by decide)⟩

/-- The first line that is refused finds the socket with too much to send, where buffers are
dropped: the notice is counted as a line, and not sent. -/
theorem exists_log_without_notice :
    ¬ ∀ (o : LogStreamerOptions) (as : List StreamerAction) (s : LogStreamer),
      (streamerSystem o).run (fun _ _ => true) {} as = some s → s.destroy.log.Delivered := by
  intro h
  obtain ⟨told, -, hentries⟩ := h { maxLogSizeBytes := 2, backpressureMode := .drop }
    [.addLine (js "ab") .stdout 0 0, .addLine (js "c") .stdout 0 2000000] _ rfl
  have hsent : ([.told (.skipped 2)] : List LogEntry) = told.map .told ++ [LogEntry.truncated] :=
    hentries
  have hmem : LogEntry.truncated ∈ ([.told (.skipped 2)] : List LogEntry) := by
    rw [hsent]
    exact mem_append_right _ (mem_singleton_self _)
  exact absurd hmem (by decide)

end Kici
