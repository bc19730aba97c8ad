import Kici.Sandbox.LogStreamer

/-!
# Whose console output it is

What a step writes to the console is captured, and sent line by line with the index of the step.
Steps run side by side, each in a capture scope of its own; but the patched writers keep one
unfinished line for each stream, for all scopes (`installOutputCapture`), and a line is sent with
the index of the scope that finishes it.

All lines that are sent with an index are those that were written in its scope if and only if a line
is only finished while the unfinished line of the stream is that of the scope (`attributed_iff`).
What another step has begun is sent along else (`exists_foreign_text`).
-/

namespace Kici

open List

/-! ## Lines -/

section Lines

variable {α : Type*} [DecidableEq α] (sep : α) {line rest text more : List α}

/-- The lines of a text that are finished, and what comes after the last separator. -/
def cutLines : List α → List (List α) × List α
  | [] => ([], [])
  | a :: text =>
    if a = sep then ([] :: (cutLines text).1, (cutLines text).2)
    else
      match (cutLines text).1 with
      | [] => ([], a :: (cutLines text).2)
      | line :: lines => ((a :: line) :: lines, (cutLines text).2)

variable {sep}

theorem not_mem_cutLines_snd (text : List α) : sep ∉ (cutLines sep text).2 := by
  induction text with
  | nil => exact not_mem_nil
  | cons a text ih =>
    change sep ∉ Prod.snd (ite (a = sep) _ _)
    by_cases ha : a = sep
    · rwa [if_pos ha]
    · rw [if_neg ha]
      split
      · exact not_mem_cons_of_ne_of_not_mem (Ne.symm ha) ih
      · exact ih

/-- What is unfinished goes on. -/
theorem cutLines_append (text more : List α) : cutLines sep (text ++ more) =
    ((cutLines sep text).1 ++ (cutLines sep ((cutLines sep text).2 ++ more)).1,
      (cutLines sep ((cutLines sep text).2 ++ more)).2) := by
  induction text with
  | nil => rfl
  | cons a text ih =>
    rw [cons_append, cutLines, cutLines, ih]
    by_cases ha : a = sep
    · simp only [if_pos ha, cons_append]
    · simp only [if_neg ha]
      cases hlines : (cutLines sep text).1 with
      | nil => simp only [nil_append, cons_append, cutLines, if_neg ha]
      | cons line lines => rfl

/-- An unfinished line is put before what is finished first. -/
theorem cutLines_unfinished_append (hrest : sep ∉ rest) (more : List α) : cutLines sep (rest ++ more) =
    match cutLines sep more with
    | ([], last) => ([], rest ++ last)
    | (line :: lines, last) => ((rest ++ line) :: lines, last) := by
  induction rest with
  | nil =>
    rw [nil_append]
    rcases cutLines sep more with ⟨_ | _, _⟩ <;> rfl
  | cons a rest ih =>
    obtain ⟨ha, hrest⟩ : sep ≠ a ∧ sep ∉ rest := by simpa using hrest
    rw [cons_append, cutLines, ih hrest, if_neg (Ne.symm ha)]
    rcases cutLines sep more with ⟨_ | _, _⟩ <;> rfl

theorem cutLines_fst_eq_nil_iff : (cutLines sep text).1 = [] ↔ sep ∉ text := by
  induction text with
  | nil => simp [cutLines]
  | cons a text ih =>
    change Prod.fst (ite (a = sep) _ _) = [] ↔ _
    by_cases ha : a = sep
    · simp [ha]
    · rw [if_neg ha, mem_cons, not_or, ← ih, and_iff_right (Ne.symm ha)]
      cases (cutLines sep text).1 <;> simp

/-- What is finished tells unfinished lines apart. -/
theorem filter_cutLines_eq_iff {own : List α} (hrest : sep ∉ rest) (hown : sep ∉ own) :
    (cutLines sep (rest ++ text)).1.filter (· ≠ []) = (cutLines sep (own ++ text)).1.filter (· ≠ []) ↔
      (sep ∈ text → rest = own) := by
  rw [cutLines_unfinished_append hrest, cutLines_unfinished_append hown]
  cases hlines : cutLines sep text with
  | mk lines last =>
    cases lines with
    | nil =>
      have hnone : sep ∉ text := cutLines_fst_eq_nil_iff.1 (by rw [hlines])
      exact iff_of_true rfl fun h => absurd h hnone
    | cons line lines =>
      have hsome : sep ∈ text := by
        by_contra h
        have := cutLines_fst_eq_nil_iff.2 h
        rw [hlines] at this
        cases this
      rw [forall_prop_of_true hsome]
      refine ⟨fun h => ?_, fun h => by rw [h]⟩
      -- a line more is never the same
      by_cases hr : rest ++ line = [] <;> by_cases ho : own ++ line = []
      · rw [(append_eq_nil_iff.1 hr).1, (append_eq_nil_iff.1 ho).1]
      · have := congrArg length h
        simp [hr, ho] at this
      · have := congrArg length h
        simp [hr, ho] at this
      · simp only [filter_cons, ne_eq, hr, ho, not_false_eq_true, decide_true, if_true, cons.injEq] at h
        exact append_cancel_right h.1

end Lines

open Ipc (LogStream)

/-- A text on a stream, with the index of the scope it was written in, `-1` outside of all scopes. -/
structure Captured where
  stepIndex : ℤ
  stream : LogStream
  text : JsString
  deriving DecidableEq

/-- The patched writers, with what was written while they capture, and the lines that were sent. -/
structure OutputCapture where
  capturePrepareActive : Bool := false
  /-- The unfinished line of each stream. -/
  buf : LogStream → JsString := fun _ => []
  sent : List Captured := []
  written : List Captured := []

/-- What happens to the writers; a flush writes a newline to both streams. -/
inductive CaptureAction
  | prepare (active : Bool)
  | write (chunk : Captured)

namespace OutputCapture

variable (c : OutputCapture)

def newline : UInt16 := 10

def captureIsActive (stepIndex : ℤ) : Bool := 0 ≤ stepIndex || c.capturePrepareActive

/-- The text comes on the stream, and the lines that are finished, but for empty ones, are sent. -/
def write (chunk : Captured) : OutputCapture :=
  if c.captureIsActive chunk.stepIndex then
    let (lines, rest) := cutLines newline (c.buf chunk.stream ++ chunk.text)
    { c with
      buf := Function.update c.buf chunk.stream rest
      sent := c.sent ++ (lines.filter (· ≠ [])).map fun line => { chunk with text := line }
      written := c.written ++ [chunk] }
  else c

def step : CaptureAction → OutputCapture
  | .prepare active => { c with capturePrepareActive := active }
  | .write chunk => c.write chunk

def flushOutputCapture (stepIndex : ℤ) : List CaptureAction :=
  [.write ⟨stepIndex, .stdout, [newline]⟩, .write ⟨stepIndex, .stderr, [newline]⟩]

/-- The writers after what has happened. -/
def after (actions : List CaptureAction) : OutputCapture := actions.foldl step {}

/-- The texts of a scope on a stream. -/
def textsOf (stepIndex : ℤ) (stream : LogStream) (texts : List Captured) : List JsString :=
  texts.filterMap fun t => if t.stepIndex = stepIndex ∧ t.stream = stream then some t.text else none

/-- What a scope has written to a stream, cut in lines. -/
def linesOf (stepIndex : ℤ) (stream : LogStream) : List JsString × JsString :=
  cutLines newline (textsOf stepIndex stream c.written).flatten

/-- Exactly the lines that a scope has finished, but for empty ones, were sent with its index. -/
def Attributed : Prop := ∀ stepIndex stream,
  textsOf stepIndex stream c.sent = (c.linesOf stepIndex stream).1.filter (· ≠ [])

/-- If the action finishes a line, the unfinished line of the stream is that of the scope. -/
def FinishesOwn : CaptureAction → Prop
  | .prepare _ => True
  | .write chunk => c.captureIsActive chunk.stepIndex = true → newline ∈ chunk.text →
      c.buf chunk.stream = (c.linesOf chunk.stepIndex chunk.stream).2

/-! ## What a write does -/

variable {c} {a : CaptureAction} {actions : List CaptureAction} {chunk : Captured} {stepIndex : ℤ}
  {stream : LogStream}

theorem textsOf_append (texts more : List Captured) :
    textsOf stepIndex stream (texts ++ more) = textsOf stepIndex stream texts ++ textsOf stepIndex
    stream more := by
  simp [textsOf]

theorem after_concat (actions : List CaptureAction) (a : CaptureAction) :
    after (actions ++ [a]) = (after actions).step a := by
  simp [after]

/-- No unfinished line has a newline. -/
theorem newline_not_mem_buf (actions : List CaptureAction) : newline ∉ (after actions).buf stream := by
  induction actions using reverseRecOn with
  | nil => exact not_mem_nil
  | append_singleton actions a ih =>
    rw [after_concat]
    cases a with
    | prepare active => exact ih
    | write chunk =>
      simp only [step, write]
      split
      · by_cases hstream : stream = chunk.stream
        · subst hstream
          dsimp only
          rw [Function.update_self]
          exact not_mem_cutLines_snd _
        · dsimp only
          rwa [Function.update_of_ne hstream]
      · exact ih

/-- The texts of a scope, when another text comes. -/
theorem textsOf_append_map (texts : List Captured) (lines : List JsString) :
    textsOf stepIndex stream (texts ++ lines.map fun line => { chunk with text := line }) =
      textsOf stepIndex stream texts ++
        if chunk.stepIndex = stepIndex ∧ chunk.stream = stream then lines else [] := by
  rw [textsOf_append]
  by_cases h : chunk.stepIndex = stepIndex ∧ chunk.stream = stream
  · simp [textsOf, filterMap_map, h]
  · simp [textsOf, filterMap_map, h]

/-- From writers that attribute right, an action leads to such if and only if what it finishes is
its own. -/
theorem attributed_step_iff (hbuf : ∀ stream, newline ∉ c.buf stream) (h : c.Attributed) :
    (c.step a).Attributed ↔ c.FinishesOwn a := by
  cases a with
  | prepare active => exact iff_of_true h trivial
  | write chunk =>
    by_cases hactive : c.captureIsActive chunk.stepIndex
    swap
    · simp only [step, write, FinishesOwn, hactive]
      exact iff_of_true h fun hfalse => absurd hfalse (by simp)
    have hwritten : (c.write chunk).written = c.written ++ [chunk.text].map fun line =>
      { chunk with text := line } := by
      rw [write, if_pos hactive]
      rfl
    have hsent : (c.write chunk).sent = c.sent ++
        ((cutLines newline (c.buf chunk.stream ++ chunk.text)).1.filter (· ≠ [])).map
          fun line => { chunk with text := line } := by
      rw [write, if_pos hactive]
    have hown : textsOf chunk.stepIndex chunk.stream (c.write chunk).sent =
          ((c.write chunk).linesOf chunk.stepIndex chunk.stream).1.filter (· ≠ []) ↔
            c.FinishesOwn (.write chunk) := by
      have hold := h chunk.stepIndex chunk.stream
      rw [linesOf] at hold
      rw [linesOf, hsent, hwritten, textsOf_append_map, textsOf_append_map, if_pos ⟨rfl, rfl⟩,
        if_pos ⟨rfl, rfl⟩,
        flatten_append, cutLines_append (textsOf _ _ _).flatten, filter_append, hold,
        append_cancel_left_eq, flatten_singleton,
          filter_cutLines_eq_iff (hbuf _) (not_mem_cutLines_snd _), FinishesOwn, linesOf,
        forall_prop_of_true hactive]
    refine ⟨fun hstep => hown.1 (hstep _ _), fun hfinishes stepIndex stream => ?_⟩
    by_cases hsame : chunk.stepIndex = stepIndex ∧ chunk.stream = stream
    · obtain ⟨rfl, rfl⟩ := hsame
      exact hown.2 hfinishes
    · rw [step, linesOf, hsent, hwritten, textsOf_append_map, textsOf_append_map, if_neg hsame,
        if_neg hsame, append_nil, append_nil]
      exact h stepIndex stream

/-- Along a run, all lines are those of their steps at any time if and only if every line is
finished by a scope whose own line is unfinished, and no other. -/
theorem attributed_iff (actions : List CaptureAction) :
    (∀ done, done <+: actions → (after done).Attributed) ↔
      ∀ done a, done ++ [a] <+: actions → (after done).FinishesOwn a := by
  have hnil : (after []).Attributed := fun _ _ => rfl
  induction actions using reverseRecOn with
  | nil =>
    refine ⟨fun _ done a h => ?_, fun _ done h => ?_⟩
    · simp at h
    · rwa [prefix_nil.1 h]
  | append_singleton actions a ih =>
    have hstates : (∀ done, done <+: actions ++ [a] → (after done).Attributed) ↔
        (after (actions ++ [a])).Attributed ∧ ∀ done, done <+: actions → (after done).Attributed := by
      simp only [prefix_concat_iff, or_imp, forall_and, forall_eq]
    have hsteps : (∀ done b, done ++ [b] <+: actions ++ [a] → (after done).FinishesOwn b) ↔
        (after actions).FinishesOwn a ∧ ∀ done b, done ++ [b] <+: actions →
          (after done).FinishesOwn b := by
      simp only [prefix_concat_iff, or_imp, forall_and, append_singleton_inj, and_imp]
      simp
    have hlast (h : ∀ done, done <+: actions → (after done).Attributed) :
        (after (actions ++ [a])).Attributed ↔ (after actions).FinishesOwn a :=
      after_concat actions a ▸
        attributed_step_iff (fun _ => newline_not_mem_buf actions) (h actions prefix_rfl)
    rw [hstates, hsteps]
    constructor
    · rintro ⟨ha, h⟩
      exact ⟨(hlast h).1 ha, ih.1 h⟩
    · rintro ⟨ha, h⟩
      exact ⟨(hlast (ih.2 h)).2 ha, ih.2 h⟩

/-- A step that ends while another one has begun a line sends what the other has begun. -/
theorem exists_foreign_text : ∃ actions, ⟨1, .stdout, js "a"⟩ ∈ (after actions).sent ∧
    ∀ chunk ∈ (after actions).written, chunk.stepIndex = 1 → chunk.text = [newline] :=
  ⟨.write ⟨0, .stdout, js "a"⟩ :: flushOutputCapture 1, by decide, by decide⟩

end OutputCapture

end Kici
