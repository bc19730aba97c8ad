import Kici.Foundation.Except
import Kici.Sandbox.ParallelGroup
import Mathlib.Data.List.Induction
import Mathlib.Data.List.Nodup

/-!
# A parallel group runs each child once

Whatever the order in which the children of a group end, and whatever their outcomes: no more of
them run than the window has places, each is launched at most once and recorded once, at its own
place, the group fails if and only if a failure is not passed over, and a group that fails fast
launches no child after the first such failure and aborts the steps that are in flight then, and no
other (`ParallelNode.Sound`).

A group whose window is no whole number does not start, unless it has no child behind the window; so
the law holds if and only if the window is whole or has a place for each child
(`runParallelGroup_iff`).

A worker's turn is one of four moves (`Move`), of which every state is the result (`Reach`); each
part of the law is an induction on these.
-/

namespace Kici

open List Nat ParallelNode Option

namespace GroupEvent

/-- The children that run after what has happened. -/
def afterEvent (running : List ℕ) : GroupEvent → List ℕ
  | .launch i => running ++ [i]
  | .finish i _ => running.erase i
  | _ => running

def running (log : List GroupEvent) : List ℕ := log.foldl afterEvent []

def launched? : GroupEvent → Option ℕ
  | .launch i => some i
  | _ => none

def recorded? : GroupEvent → Option ℕ
  | .finish i _ | .cancel i => some i
  | _ => none

def failed? : GroupEvent → Option (ℕ × StepIterationOutcome)
  | .finish i outcome => if outcome.shouldBreak then some (i, outcome) else none
  | _ => none

/-- The children that were launched. -/
def launched (log : List GroupEvent) : List ℕ := log.filterMap launched?

/-- The children whose results were recorded. -/
def recorded (log : List GroupEvent) : List ℕ := log.filterMap recorded?

/-- The first failure that is not passed over. -/
def firstFailure (log : List GroupEvent) : Option (ℕ × StepIterationOutcome) := log.findSome? failed?

end GroupEvent

open GroupEvent

namespace ParallelNode

variable (node : ParallelNode)

/-- The index of the child at a place among the steps of the job. -/
def stepIndexAt (i : ℕ) : Option ℕ := (node.children[i]?).map (·.stepIndex)

/-- The first failure of a group that fails fast: no child is launched after it, and exactly the
steps that run besides are aborted. -/
structure TrippedAt (log before : List GroupEvent) (i : ℕ) (outcome : StepIterationOutcome)
    (after : List GroupEvent) : Prop where
  log_eq : log = before ++ .finish i outcome :: after
  breaks : outcome.shouldBreak = true
  first : firstFailure before = none
  launches : ∀ j, .launch j ∉ after
  aborts : ∀ k, .abort k ∈ log ↔ ∃ j ∈ (running before).erase i, node.stepIndexAt j = some k

/-- What holds at any time of a group that runs. -/
structure Sound (s : GroupState) : Prop where
  /-- Never do more children run than the window has places. -/
  window : ∀ before, before <+: s.log → node.limit.atLeast (running before).length
  launched_once : (launched s.log).Nodup
  recorded_once : (recorded s.log).Nodup
  recorded_lt : ∀ i ∈ recorded s.log, i < node.children.length
  /-- What stands at a place is the result of the child of the place. -/
  own : ∀ i result, s.results[i]? = some (some result) ↔
    (∃ outcome, .finish i outcome ∈ s.log ∧ outcome.result = result) ∨
      .cancel i ∈ s.log ∧ ∃ child, node.children[i]? = some child ∧ emitCancelledSkip child = result
  /-- When the workers have returned, all children are recorded. -/
  complete : s.awaiting = [] → ∀ i < node.children.length, i ∈ recorded s.log
  failed : s.failed = true ↔ ∃ i outcome, .finish i outcome ∈ s.log ∧ outcome.shouldBreak = true
  tripped : node.failFast = true → s.failed = true → ∃ before i outcome after,
    node.TrippedAt s.log before i outcome after
  untripped : node.failFast = false ∨ s.failed = false → ∀ k, .abort k ∉ s.log

/-- The group starts, and goes as it should whatever the order and the outcomes of its children. -/
def RunsAsItShould : Prop :=
  (∃ s, node.start = .ok s) ∧ ∀ s, (parallelSystem node).Reachable System.anyStep s → node.Sound s

/-- The window is a whole number, or has a place for each child. -/
def windowFits : Prop := ∀ q, node.limit = .finite q → q = ⌊q⌋₊ ∨ (node.children.length : ℚ) ≤ q

/-! ## Moves -/

/-- What a worker does without waiting. -/
inductive Move : GroupState → GroupState → Prop
  | settle {s : GroupState} {i : ℕ} {child : IndexedStep} (outcome : StepIterationOutcome) :
    i ∈ s.awaiting → node.children[i]? = some child → Move s (node.settle s i child outcome)
  | cancel {s : GroupState} {child : IndexedStep} : node.failFast = true → s.failed = true →
    node.children[s.cursor]? = some child → Move s (cancelNext s child)
  | launch {s : GroupState} {child : IndexedStep} : ¬ (node.failFast = true ∧ s.failed = true) →
    node.children[s.cursor]? = some child → s.awaiting.length < node.workers →
      Move s (launchNext s child)
  | pass {s : GroupState} : node.children.length ≤ s.cursor → Move s { s with cursor := s.cursor + 1 }

/-- The states that moves lead to. -/
inductive Reach : GroupState → Prop
  | initial {pending : List ℕ} : Reach (node.initial pending)
  | move {s t : GroupState} : Reach s → node.Move s t → Reach t

end ParallelNode

/-! ## The log -/

namespace GroupEvent

variable (log : List GroupEvent) (e : GroupEvent) (i : ℕ) (outcome : StepIterationOutcome)
  (aborted : List ℕ)

theorem running_concat : running (log ++ [e]) = afterEvent (running log) e := by
  rw [running, foldl_append]
  rfl

theorem running_append_aborts : running (log ++ aborted.map .abort) = running log := by
  induction aborted generalizing log with
  | nil => rw [map_nil, append_nil]
  | cons k aborted ih =>
    rw [map_cons, append_cons, ih, running_concat]
    rfl

/-- What a child that is over adds to the log. -/
theorem running_settle : running (log ++ .finish i outcome :: aborted.map .abort) =
    (running log).erase i := by
  rw [append_cons, running_append_aborts, running_concat, afterEvent]

theorem filterMap_aborts {β : Type} {f : GroupEvent → Option β} (hf : ∀ k, f (.abort k) = none) :
    (aborted.map GroupEvent.abort).filterMap f = [] := by
  rw [filterMap_map]
  exact filterMap_eq_nil_iff.2 fun k _ => hf k

theorem recorded_settle : recorded (log ++ .finish i outcome :: aborted.map .abort) =
    recorded log ++ [i] := by
  rw [recorded, filterMap_append, filterMap_cons, filterMap_aborts _ fun _ => rfl]
  rfl

theorem launched_settle : launched (log ++ .finish i outcome :: aborted.map .abort) = launched log := by
  rw [launched, filterMap_append, filterMap_cons, filterMap_aborts _ fun _ => rfl]
  exact append_nil _

theorem launched_concat : launched (log ++ [e]) = launched log ++ (launched? e).toList := by
  rcases he : launched? e with _ | i <;> simp [launched, he]

theorem recorded_concat : recorded (log ++ [e]) = recorded log ++ (recorded? e).toList := by
  rcases he : recorded? e with _ | i <;> simp [recorded, he]

theorem firstFailure_settle : firstFailure (log ++ .finish i outcome :: aborted.map .abort) =
    (firstFailure log).or (if outcome.shouldBreak then some (i, outcome) else none) := by
  have haborts : (aborted.map GroupEvent.abort).findSome? failed? = none := by
    rw [findSome?_map]
    exact findSome?_eq_none_iff.2 fun _ _ => rfl
  rw [firstFailure, findSome?_append, findSome?_cons, haborts, failed?]
  rcases outcome.shouldBreak <;> rfl

theorem firstFailure_concat (he : failed? e = none) : firstFailure (log ++ [e]) = firstFailure log := by
  rw [firstFailure, findSome?_append, findSome?_singleton, he, or_none]
  rfl

variable {log e i outcome}

theorem mem_recorded_of_finish (h : .finish i outcome ∈ log) : i ∈ recorded log :=
  mem_filterMap.2 ⟨_, h, rfl⟩

theorem mem_recorded_of_cancel (h : .cancel i ∈ log) : i ∈ recorded log := mem_filterMap.2 ⟨_, h, rfl⟩

theorem isSome_firstFailure :
    (firstFailure log).isSome ↔ ∃ i outcome, .finish i outcome ∈ log ∧ outcome.shouldBreak := by
  rw [firstFailure, findSome?_isSome_iff]
  constructor
  · rintro ⟨e, he, hfailed⟩
    cases e <;> simp [failed?] at hfailed
    exact ⟨_, _, he, hfailed⟩
  · rintro ⟨i, outcome, he, hbreak⟩
    exact ⟨_, he, by simp [failed?, hbreak]⟩

/-- Never do more than so many children run. -/
def Within (width : ℕ) (log : List GroupEvent) : Prop :=
  ∀ before, before <+: log → (running before).length ≤ width

theorem Within.concat {width : ℕ} (h : Within width log) (he : (running (log ++ [e])).length ≤ width) :
    Within width (log ++ [e]) := by
  intro before hbefore
  rcases prefix_concat_iff.1 hbefore with rfl | hbefore
  · exact he
  · exact h before hbefore

/-- It stays so while children end. -/
theorem Within.settle {width : ℕ} (h : Within width log) (i : ℕ) (outcome : StepIterationOutcome)
    (aborted : List ℕ) : Within width (log ++ .finish i outcome :: aborted.map .abort) := by
  have hfinish : Within width (log ++ [finish i outcome]) := by
    refine h.concat ?_
    rw [running_concat, afterEvent]
    exact length_erase_le.trans (h log prefix_rfl)
  rw [append_cons]
  induction aborted using reverseRecOn with
  | nil =>
    rw [map_nil, append_nil]
    exact hfinish
  | append_singleton aborted k ih =>
    rw [map_append, ← append_assoc]
    refine ih.concat ?_
    rw [running_concat]
    exact ih _ prefix_rfl

end GroupEvent

/-! ## What moves keep -/

/-- To take out an element and to take out what it stands for, where no other element stands for
it. -/
theorem filter_filterMap_eq {α β : Type*} [DecidableEq α] [DecidableEq β] {f : α → Option β}
    {l : List α} {a : α} {b : β}
    (hl : l.Nodup) (ha : f a = some b) (hsame : ∀ x, f x = some b → x = a) :
    (l.filterMap f).filter (· ≠ b) = (l.erase a).filterMap f := by
  rw [hl.erase_eq_filter, filter_filterMap, filterMap_filter]
  congr 1
  funext x
  by_cases hx : x = a
  · rw [hx, ha]
    simp
  · rcases hf : f x with _ | c
    · simp
    · have hc : c ≠ b := fun hc => hx (hsame x (hc ▸ hf))
      simp [hx, hc]

namespace ParallelNode

variable {node : ParallelNode} {s t : GroupState}

theorem stepIndexAt_eq {i j k : ℕ} (hi : node.stepIndexAt i = some k)
    (hj : node.stepIndexAt j = some k) : i = j := by
  rw [stepIndexAt, ← getElem?_map] at hi hj
  have hlt : i < (node.children.map (·.stepIndex)).length := (List.getElem?_eq_some_iff.1 hi).1
  exact (getElem?_inj hlt node.distinct).1 (hi.trans hj.symm)

theorem stepIndexAt_of_child {i : ℕ} {child : IndexedStep} (h : node.children[i]? = some child) :
    node.stepIndexAt i = some child.stepIndex := by
  rw [stepIndexAt, h]
  rfl

/-- A group begins with announcements alone. -/
theorem filterMap_initial {β : Type} {f : GroupEvent → Option β} {pending : List ℕ}
    (hf : ∀ i, f (.pending i) = none) : (node.initial pending).log.filterMap f = [] := by
  rw [initial, filterMap_map]
  exact filterMap_eq_nil_iff.2 fun i _ => hf i

theorem firstFailure_initial {pending : List ℕ} : firstFailure (node.initial pending).log = none := by
  rw [firstFailure, initial, findSome?_map]
  exact findSome?_eq_none_iff.2 fun _ _ => rfl

namespace Reach

section

variable (h : node.Reach s)
include h

theorem mem_awaiting : ∀ i ∈ s.awaiting, i < s.cursor ∧ i < node.children.length := by
  induction h with
  | initial => exact nofun
  | move _ hmove ih =>
    cases hmove with
    | settle outcome hi hchild => exact fun j hj => ih j (mem_of_mem_erase hj)
    | cancel | pass => exact fun j hj => ⟨(ih j hj).1.trans (lt_succ_self _), (ih j hj).2⟩
    | launch _ hchild hroom =>
      intro j hj
      rcases mem_append.1 hj with hj | hj
      · exact ⟨(ih j hj).1.trans (lt_succ_self _), (ih j hj).2⟩
      · rw [mem_singleton.1 hj]
        exact ⟨lt_succ_self _, (List.getElem?_eq_some_iff.1 hchild).1⟩

theorem cursor_notMem : s.cursor ∉ s.awaiting := fun hmem =>
  lt_irrefl _ (h.mem_awaiting _ hmem).1

theorem nodup_awaiting : s.awaiting.Nodup := by
  induction h with
  | initial => exact nodup_nil
  | move hreach hmove ih =>
    cases hmove with
    | settle outcome hi hchild => exact ih.erase _
    | cancel _ _ hchild => exact ih
    | launch _ hchild hroom => exact nodup_append.2 ⟨ih, nodup_singleton _, fun j hj k hk heq =>
        hreach.cursor_notMem (mem_singleton.1 hk ▸ heq ▸ hj)⟩
    | pass => exact ih

/-- The workers wait for the children that run. -/
theorem running_log : running s.log = s.awaiting := by
  induction h with
  | @initial pending =>
    have hpending : ∀ l, (pending.map GroupEvent.pending).foldl afterEvent l = l := by
      induction pending with
      | nil => exact fun _ => rfl
      | cons i pending ih => exact ih
    exact hpending []
  | move _ hmove ih =>
    cases hmove with
    | settle outcome hi hchild => exact (running_settle _ _ _ _).trans (congrArg (List.erase · _) ih)
    | cancel _ _ hchild => exact (running_concat _ _).trans ih
    | launch _ hchild hroom => exact (running_concat _ _).trans (congrArg (· ++ [_]) ih)
    | pass => exact ih

/-- The steps in flight are those of the children that workers wait for. -/
theorem inFlight_eq : s.inFlight = s.awaiting.filterMap node.stepIndexAt := by
  induction h with
  | initial => rfl
  | @move s t hreach hmove ih =>
    cases hmove with
    | settle outcome hi hchild =>
      rw [settle]
      dsimp only
      rw [ih]
      exact filter_filterMap_eq hreach.nodup_awaiting (stepIndexAt_of_child hchild) fun j hj =>
        stepIndexAt_eq hj (stepIndexAt_of_child hchild)
    | cancel _ _ hchild => exact ih
    | @launch child _ hchild hroom =>
      -- no other child has the index, so the set does not have it yet
      have hfresh : child.stepIndex ∉ s.inFlight := by
        rw [ih]
        intro hmem
        obtain ⟨j, hj, hstep⟩ := mem_filterMap.1 hmem
        rw [stepIndexAt_eq hstep (stepIndexAt_of_child hchild)] at hj
        exact hreach.cursor_notMem hj
      rw [launchNext]
      dsimp only
      rw [if_neg hfresh, filterMap_append, ← ih, filterMap_cons, stepIndexAt_of_child hchild]
      rfl
    | pass => exact ih

/-- No more children run than there are workers. -/
theorem within : Within node.workers s.log := by
  induction h with
  | @initial pending =>
    intro before hbefore
    have hnone : running before = [] := by
      obtain ⟨rest, hrest⟩ := hbefore
      have hpending : ∀ e ∈ before, ∃ i, e = .pending i := fun e he => by
        have hmem : e ∈ (node.initial pending).log := hrest ▸ mem_append_left rest he
        obtain ⟨i, -, hi⟩ := mem_map.1 hmem
        exact ⟨i, hi.symm⟩
      clear hrest
      induction before using reverseRecOn with
      | nil => rfl
      | append_singleton before e ih =>
        obtain ⟨i, rfl⟩ := hpending e (mem_append_right _ (mem_singleton_self e))
        rw [running_concat]
        exact ih fun e he => hpending e (mem_append_left _ he)
    rw [hnone]
    exact Nat.zero_le _
  | move hreach hmove ih =>
    cases hmove with
    | settle outcome hi hchild => exact ih.settle _ _ _
    | cancel _ _ hchild =>
      refine ih.concat ?_
      rw [running_concat]
      exact ih _ prefix_rfl
    | launch _ hchild hroom =>
      refine ih.concat ?_
      rw [running_concat, hreach.running_log, afterEvent, length_append]
      exact hroom
    | pass => exact ih

theorem launched_lt : (launched s.log).Nodup ∧ ∀ i ∈ launched s.log, i < s.cursor := by
  induction h with
  | @initial pending =>
    have hnone : launched (node.initial pending).log = [] := filterMap_initial fun _ => rfl
    rw [hnone]
    exact ⟨nodup_nil, nofun⟩
  | @move s t hreach hmove ih =>
    obtain ⟨hnodup, hlt⟩ := ih
    cases hmove with
    | settle outcome hi hchild =>
      rw [settle, launched_settle]
      exact ⟨hnodup, hlt⟩
    | cancel _ _ hchild =>
      have hlog : launched (s.log ++ [cancel s.cursor]) = launched s.log :=
        (launched_concat _ _).trans (append_nil _)
      rw [cancelNext, hlog]
      exact ⟨hnodup, fun i hi => (hlt i hi).trans (lt_succ_self _)⟩
    | launch _ hchild hroom =>
      have hlog : launched (s.log ++ [launch s.cursor]) = launched s.log ++ [s.cursor] :=
        launched_concat _ _
      rw [launchNext, hlog]
      refine ⟨nodup_append.2 ⟨hnodup, nodup_singleton _, fun i hi k hk heq => ?_⟩, fun i hi => ?_⟩
      · exact lt_irrefl _ (hlt _ (mem_singleton.1 hk ▸ heq ▸ hi))
      · rcases mem_append.1 hi with hi | hi
        · exact (hlt i hi).trans (lt_succ_self _)
        · rw [mem_singleton.1 hi]
          exact lt_succ_self _
    | pass => exact ⟨hnodup, fun i hi => (hlt i hi).trans (lt_succ_self _)⟩

/-- The children that were taken are recorded, but for those that workers wait for. -/
theorem mem_recorded : (recorded s.log).Nodup ∧
    ∀ i, i ∈ recorded s.log ↔ (i < s.cursor ∧ i < node.children.length) ∧ i ∉ s.awaiting := by
  induction h with
  | @initial pending =>
    have hnone : recorded (node.initial pending).log = [] := filterMap_initial fun _ => rfl
    rw [hnone]
    exact ⟨nodup_nil, fun i => by simp [ParallelNode.initial]⟩
  | @move s t hreach hmove ih =>
    obtain ⟨hnodup, hmem⟩ := ih
    cases hmove with
    | @settle k child outcome hi hchild =>
      have hnot : k ∉ recorded s.log := fun hk => ((hmem k).1 hk).2 hi
      rw [settle, recorded_settle]
      refine ⟨nodup_append.2 ⟨hnodup, nodup_singleton _, fun i hi k' hk' heq => ?_⟩, fun j => ?_⟩
      · exact hnot (mem_singleton.1 hk' ▸ heq ▸ hi)
      · dsimp only
        rw [mem_append, mem_singleton, hmem, hreach.nodup_awaiting.mem_erase_iff]
        by_cases hj : j = k
        · subst hj
          simp [hreach.mem_awaiting j hi]
        · simp [hj]
    | @cancel child _ _ hchild =>
      have hlog : recorded (s.log ++ [cancel s.cursor]) = recorded s.log ++ [s.cursor] :=
        recorded_concat _ _
      have hlt := (List.getElem?_eq_some_iff.1 hchild).1
      rw [cancelNext, hlog]
      refine ⟨nodup_append.2 ⟨hnodup, nodup_singleton _, fun i hi k' hk' heq => ?_⟩, fun j => ?_⟩
      · exact lt_irrefl _ ((hmem _).1 (mem_singleton.1 hk' ▸ heq ▸ hi)).1.1
      · dsimp only
        rw [mem_append, mem_singleton, hmem]
        by_cases hj : j = s.cursor
        · subst hj
          simp [hlt, hreach.cursor_notMem]
        · have hle : j < s.cursor + 1 ↔ j < s.cursor := by omega
          simp [hj, hle]
    | @launch child _ hchild hroom =>
      have hlog : recorded (s.log ++ [launch s.cursor]) = recorded s.log :=
        (recorded_concat _ _).trans (append_nil _)
      rw [launchNext, hlog]
      refine ⟨hnodup, fun j => ?_⟩
      dsimp only
      rw [hmem, mem_append, mem_singleton]
      by_cases hj : j = s.cursor
      · simp [hj]
      · have hle : j < s.cursor + 1 ↔ j < s.cursor := by omega
        simp [hj, hle]
    | pass hcursor =>
      refine ⟨hnodup, fun j => ?_⟩
      rw [hmem]
      have hle : j < s.cursor + 1 ∧ j < node.children.length ↔ j < s.cursor ∧
        j < node.children.length := by omega
      exact and_congr_left fun _ => hle.symm

theorem length_results : s.results.length = node.children.length := by
  induction h with
  | initial => exact length_replicate
  | move _ hmove ih =>
    cases hmove with
    | settle | cancel => exact length_set.trans ih
    | launch | pass => exact ih

/-- What stands at a place was recorded for the child of the place. -/
theorem own (i : ℕ) (result : SandboxStepResult) : s.results[i]? = some (some result) ↔
    (∃ outcome, .finish i outcome ∈ s.log ∧ outcome.result = result) ∨
      .cancel i ∈ s.log ∧ ∃ child, node.children[i]? = some child ∧
      emitCancelledSkip child = result := by
  induction h with
  | @initial pending =>
    simp [ParallelNode.initial, getElem?_replicate]
  | @move s t hreach hmove ih =>
    cases hmove with
    | @settle k child outcome hk hchild =>
      have hlt := (hreach.mem_awaiting k hk).2
      rw [settle]
      dsimp only
      by_cases hik : i = k
      · subst hik
        -- nothing was recorded at the place while a worker waited for its child
        have hnot : i ∉ recorded s.log := fun hmem => ((hreach.mem_recorded.2 i).1 hmem).2 hk
        have hfinish : ∀ o, finish i o ∉ s.log := fun o hmem => hnot (mem_recorded_of_finish hmem)
        have hcancel : cancel i ∉ s.log := fun hmem => hnot (mem_recorded_of_cancel hmem)
        rw [getElem?_set_self (hreach.length_results ▸ hlt)]
        simp [hfinish, hcancel]
      · rw [getElem?_set_ne (Ne.symm hik), ih]
        simp [hik]
    | @cancel child _ _ hchild =>
      have hlt := (List.getElem?_eq_some_iff.1 hchild).1
      rw [cancelNext]
      dsimp only
      by_cases hik : i = s.cursor
      · subst hik
        have hnot : s.cursor ∉ recorded s.log := fun hmem =>
          lt_irrefl _ ((hreach.mem_recorded.2 _).1 hmem).1.1
        have hfinish : ∀ o, finish s.cursor o ∉ s.log := fun o hmem => hnot (mem_recorded_of_finish hmem)
        rw [getElem?_set_self (hreach.length_results ▸ hlt)]
        simp [hfinish, hchild]
      · rw [getElem?_set_ne (Ne.symm hik), ih]
        simp [hik]
    | launch _ hchild hroom =>
      rw [launchNext]
      simp only [mem_append, mem_singleton, reduceCtorEq, or_false]
      exact ih
    | pass => exact ih

theorem failed_eq : s.failed = (firstFailure s.log).isSome := by
  induction h with
  | initial =>
    rw [firstFailure_initial]
    rfl
  | @move s t hreach hmove ih =>
    cases hmove with
    | @settle k child outcome hk hchild =>
      rw [settle, firstFailure_settle, isSome_or, ← ih]
      rcases outcome.shouldBreak <;> rfl
    | cancel | launch => exact ih.trans (congrArg isSome (firstFailure_concat _ _ rfl).symm)
    | pass => exact ih

/-- No step is aborted before a failure, or at all if the group does not fail fast. -/
theorem untripped (hnot : node.failFast = false ∨ s.failed = false) (k : ℕ) : .abort k ∉ s.log := by
  induction h with
  | @initial pending =>
    intro hmem
    obtain ⟨j, -, hj⟩ := mem_map.1 hmem
    cases hj
  | @move s t hreach hmove ih =>
    cases hmove with
    | @settle i child outcome hi hchild =>
      -- it is not this child that makes the group fail fast
      have hbreak : ¬ (outcome.shouldBreak ∧ node.failFast) := by
        rintro ⟨hbreak, hfast⟩
        rw [settle] at hnot
        simp [hbreak, hfast] at hnot
      have hbefore : node.failFast = false ∨ s.failed = false :=
        hnot.imp_right fun hfailed => (Bool.or_eq_false_iff.1 hfailed).1
      rw [settle]
      dsimp only
      rw [if_neg hbreak]
      simp [ih hbefore]
    | cancel _ _ hchild => simpa [cancelNext] using ih hnot
    | launch _ hchild hroom => simpa [launchNext] using ih hnot
    | pass => exact ih hnot

/-- The steps that are aborted are those in flight at the first failure, and workers wait for no
others after it. -/
theorem tripped (hfast : node.failFast) (hfailed : s.failed) :
    ∃ before i outcome after, node.TrippedAt s.log before i outcome after ∧
      ∀ j ∈ s.awaiting, j ∈ (running before).erase i := by
  induction h with
  | initial => cases hfailed
  | @move s t hreach hmove ih =>
    cases hmove with
    | @settle i child outcome hi hchild =>
      have haborts : ∀ k, k ∈ s.inFlight.filter (· ≠ child.stepIndex) ↔
          ∃ j ∈ s.awaiting.erase i, node.stepIndexAt j = some k := fun k => by
        rw [hreach.inFlight_eq, filter_filterMap_eq hreach.nodup_awaiting (stepIndexAt_of_child hchild)
          fun j hj => stepIndexAt_eq hj (stepIndexAt_of_child hchild), mem_filterMap]
      by_cases hbefore : s.failed
      · -- a failure after the first one: what it aborts was aborted before
        obtain ⟨before, i', outcome', after, ⟨hlog, hbreaks, hfirst, hlaunches, hcalls⟩, hrunning⟩ :=
          ih hbefore
        refine ⟨before, i', outcome', after ++ finish i outcome ::
          (if outcome.shouldBreak ∧ node.failFast then s.inFlight.filter (· ≠ child.stepIndex)
            else []).map .abort,
          ⟨?_, hbreaks, hfirst, fun j hj => ?_, fun k => ?_⟩, fun j hj =>
            hrunning j (mem_of_mem_erase hj)⟩
        · rw [settle, hlog, append_assoc, cons_append]
        · rcases mem_append.1 hj with hj | hj
          · exact hlaunches j hj
          · simp at hj
        · rw [settle, mem_append, ← hcalls]
          refine ⟨fun hmem => hmem.elim id fun hmem => ?_, .inl⟩
          have hk : k ∈ s.inFlight.filter (· ≠ child.stepIndex) := by
            split at hmem
            · simpa using hmem
            · simp at hmem
          obtain ⟨j, hj, hstep⟩ := (haborts k).1 hk
          exact (hcalls k).2 ⟨j, hrunning j (mem_of_mem_erase hj), hstep⟩
      -- the first failure: nothing was aborted before it, and it aborts what is in flight then
      · have hbreaks : outcome.shouldBreak := by simpa [settle, hbefore] using hfailed
        have hfirst : firstFailure s.log = none := by
          rw [hreach.failed_eq] at hbefore
          exact not_isSome_iff_eq_none.1 hbefore
        refine ⟨s.log, i, outcome, (s.inFlight.filter (· ≠ child.stepIndex)).map .abort,
          ⟨?_, hbreaks, hfirst, fun j hj => ?_, fun k => ?_⟩, fun j hj => ?_⟩
        · rw [settle, if_pos (⟨hbreaks, hfast⟩ : _ ∧ _)]
        · simp at hj
        · have hnone : abort k ∉ s.log := hreach.untripped (.inr (Bool.eq_false_iff.2 hbefore)) k
          rw [settle, if_pos (⟨hbreaks, hfast⟩ : _ ∧ _), hreach.running_log, ← haborts]
          simp [hnone]
        · rw [hreach.running_log]
          exact hj
    | @cancel child _ _ hchild =>
      obtain ⟨before, i, outcome, after, ⟨hlog, hbreaks, hfirst, hlaunches, hcalls⟩, hrunning⟩ :=
        ih hfailed
      refine ⟨before, i, outcome, after ++ [cancel s.cursor],
        ⟨?_, hbreaks, hfirst, fun j hj => ?_, fun k => ?_⟩, hrunning⟩
      · rw [cancelNext, hlog, append_assoc, cons_append]
      · rcases mem_append.1 hj with hj | hj
        · exact hlaunches j hj
        · simp at hj
      · rw [cancelNext, ← hcalls]
        simp
    -- a group that has failed fast launches nothing
    | launch hnot hchild hroom => exact absurd ⟨hfast, hfailed⟩ hnot
    | pass => exact ih hfailed

end

end Reach

/-! ## Workers -/

/-- A worker's turn is made of moves, and ends with a child that it waits for, or when no child is
left. -/
theorem Reach.work {rest : List IndexedStep} (h : node.Reach s)
    (hroom : s.awaiting.length < node.workers)
    (hrest : rest = node.children.drop s.cursor) : node.Reach (node.work s rest) ∧
      ((node.work s rest).awaiting.length = s.awaiting.length + 1 ∨
        node.children.length ≤ (node.work s rest).cursor) := by
  induction rest generalizing s with
  | nil =>
    have hcursor : node.children.length ≤ s.cursor := drop_eq_nil_iff.1 hrest.symm
    exact ⟨h.move (.pass hcursor), .inr (hcursor.trans (le_succ _))⟩
  | cons child rest ih =>
    have hlt : s.cursor < node.children.length := by
      by_contra hnot
      rw [drop_of_length_le (not_lt.1 hnot)] at hrest
      cases hrest
    rw [drop_eq_getElem_cons hlt, cons.injEq] at hrest
    have hchild : node.children[s.cursor]? = some child :=
      List.getElem?_eq_some_iff.2 ⟨hlt, hrest.1.symm⟩
    rw [work]
    split
    · next hfast => exact ih (h.move (.cancel hfast.1 hfast.2 hchild)) hroom hrest.2
    · next hfast => exact ⟨h.move (.launch hfast hchild hroom), .inl (length_append)⟩

theorem workers_le : node.workers ≤ node.children.length := by
  rw [workers]
  split
  · exact Nat.min_le_right _ _
  · exact le_rfl
  · exact Nat.zero_le _
  · exact Nat.zero_le _

/-- The workers that were started wait for the first children. -/
theorem reach_start (pending : List ℕ) {k : ℕ} (hk : k ≤ node.workers) :
    node.Reach (node.worker^[k] (node.initial pending)) ∧
      (node.worker^[k] (node.initial pending)).awaiting.length = k ∧
      (node.worker^[k] (node.initial pending)).cursor = k ∧
      (node.worker^[k] (node.initial pending)).failed = false := by
  induction k with
  | zero => exact ⟨.initial, rfl, rfl, rfl⟩
  | succ k ih =>
    obtain ⟨hreach, hlength, hcursor, hfailed⟩ := ih (le_of_succ_le hk)
    rw [Function.iterate_succ_apply']
    generalize node.worker^[k] (node.initial pending) = s at hreach hlength hcursor hfailed
    have hlt : s.cursor < node.children.length := by
      rw [hcursor]
      exact hk.trans workers_le
    have hfast : ¬ (node.failFast ∧ s.failed) := by simp [hfailed]
    have hworker : node.worker s = launchNext s node.children[s.cursor] := by
      rw [worker, drop_eq_getElem_cons hlt, work, if_neg hfast]
    rw [hworker]
    refine ⟨hreach.move (.launch hfast (getElem?_eq_getElem hlt) (hlength ▸ hk)), ?_, ?_, hfailed⟩
    · exact length_append.trans (congrArg (· + 1) hlength)
    · exact congrArg (· + 1) hcursor

/-- All workers wait for children, or no child is left. -/
def Busy (node : ParallelNode) (s : GroupState) : Prop :=
  s.awaiting.length = node.workers ∨ node.children.length ≤ s.cursor

theorem Reach.step {a : ℕ × StepIterationOutcome} (h : node.Reach s) (hbusy : node.Busy s)
    (hstep : node.step s a = some t) : node.Reach t ∧ node.Busy t := by
  rw [ParallelNode.step, ite_none_right_eq_some] at hstep
  obtain ⟨hmem, hstep⟩ := hstep
  obtain ⟨child, hchild, rfl⟩ := map_eq_some_iff.1 hstep
  have hsettled : node.Reach (node.settle s a.1 child a.2) := h.move (.settle a.2 hmem hchild)
  have hlength : (node.settle s a.1 child a.2).awaiting.length + 1 = s.awaiting.length := by
    rw [settle]
    dsimp only
    rw [length_erase_of_mem hmem]
    have hpos := length_pos_of_mem hmem
    omega
  have hle : s.awaiting.length ≤ node.workers := h.running_log ▸ h.within s.log prefix_rfl
  obtain ⟨hreach, hnext⟩ := hsettled.work (by omega) rfl
  refine ⟨hreach, ?_⟩
  rcases hbusy with hbusy | hcursor
  · exact hnext.imp_left fun hnext => by rw [worker, hnext, hlength, hbusy]
  · -- the worker finds no child, as before
    refine .inr (hnext.elim (fun _ => ?_) id)
    have hnil : node.children.drop (node.settle s a.1 child a.2).cursor = [] := drop_eq_nil_iff.2 hcursor
    rw [worker, hnil]
    exact hcursor.trans (le_succ _)

theorem reach_of_reachable (h : (parallelSystem node).Reachable System.anyStep s) : node.Reach s ∧
    node.Busy s := by
  refine h.invariant (P := fun s => node.Reach s ∧ node.Busy s) (fun s hs => ?_) fun s a t hs _ hstep =>
    hs.1.step hs.2 hstep
  obtain ⟨pending, -, hstart⟩ := bind_eq_ok hs
  obtain rfl := Except.ok.inj hstart
  obtain ⟨hreach, hlength, -⟩ := reach_start pending le_rfl
  exact ⟨hreach, .inl hlength⟩

/-! ## The window -/

theorem limit_cases : node.limit = .infinity ∨
    ∃ q, node.limit = .finite q ∧ 0 ≤ q ∧ (q = 0 → node.children.length = 0) := by
  have hall : (JsNumber.finite node.children.length = .infinity ∨ ∃ q,
    JsNumber.finite node.children.length = .finite q ∧
      0 ≤ q ∧ (q = 0 → node.children.length = 0)) :=
    .inr ⟨_, rfl, cast_nonneg _, fun hzero => by exact_mod_cast hzero⟩
  rw [limit]
  split
  · next maxParallel _ =>
    split
    · next hpositive =>
      rcases maxParallel with q | _ | _ | _
      · have hq : 0 < q := of_decide_eq_true hpositive.2
        exact .inr ⟨q, rfl, hq.le, fun hzero => absurd hzero hq.ne'⟩
      · exact .inl rfl
      · cases hpositive.2
      · cases hpositive.2
    · exact hall
  · exact hall

/-- The window has a place for each worker. -/
theorem atLeast_workers : node.limit.atLeast node.workers := by
  obtain hlimit | ⟨q, hlimit, hq, -⟩ := node.limit_cases
  · rw [hlimit]
    trivial
  · rw [workers, hlimit]
    have hmin : ((min ⌊q⌋₊ node.children.length : ℕ) : ℚ) ≤ ⌊q⌋₊ := by exact_mod_cast Nat.min_le_left _ _
    exact hmin.trans (floor_le hq)

theorem atLeast_of_le {x : JsNumber} {m n : ℕ} (h : x.atLeast n) (hmn : m ≤ n) : x.atLeast m := by
  rcases x with q | _ | _ | _
  · have hcast : (m : ℚ) ≤ n := by exact_mod_cast hmn
    exact hcast.trans h
  · trivial
  · cases h
  · cases h

/-- A group with children has a worker, if its window is a whole number. -/
theorem length_eq_zero_of_workers (hfits : node.windowFits) (h : node.workers = 0) :
    node.children.length = 0 := by
  obtain hlimit | ⟨q, hlimit, hq, hzero⟩ := node.limit_cases
  · rw [workers, hlimit] at h
    exact h
  · rw [workers, hlimit] at h
    rcases min_eq_zero_iff.1 h with hfloor | hlength
    · rcases hfits q hlimit with hwhole | hle
      · rw [hfloor, cast_zero] at hwhole
        exact hzero hwhole
      · have hlength := le_floor hle
        rw [hfloor] at hlength
        exact le_zero.1 hlength
    · exact hlength

/-- A group starts if and only if all places behind its window are whole. -/
theorem start_isOk_iff : (∃ s, node.start = .ok s) ↔ node.windowFits := by
  have hpending : (∃ s, node.start = .ok s) ↔ ∃ places, node.pendingPlaces = .ok places := by
    rw [start]
    constructor
    · rintro ⟨s, hs⟩
      obtain ⟨places, hplaces, -⟩ := bind_eq_ok hs
      exact ⟨places, hplaces⟩
    · rintro ⟨places, hplaces⟩
      exact ⟨_, bind_ok hplaces rfl⟩
  rw [hpending, windowFits, pendingPlaces]
  obtain hlimit | ⟨q, hlimit, -, -⟩ := node.limit_cases
  · rw [hlimit]
    exact ⟨nofun, fun _ => ⟨[], rfl⟩⟩
  · rw [hlimit]
    dsimp only
    constructor
    · rintro ⟨places, hplaces⟩ q' hq'
      cases hq'
      by_cases hle : (node.children.length : ℚ) ≤ q
      · exact .inr hle
      · rw [if_neg hle] at hplaces
        by_cases hwhole : q = ⌊q⌋₊
        · exact .inl hwhole
        · rw [if_neg hwhole] at hplaces
          cases hplaces
    · intro hfits
      rcases hfits q rfl with hwhole | hle
      · by_cases hle : (node.children.length : ℚ) ≤ q
        · exact ⟨_, if_pos hle⟩
        · exact ⟨_, by rw [if_neg hle, if_pos hwhole]⟩
      · exact ⟨_, if_pos hle⟩

theorem Reach.sound (h : node.Reach s) (hbusy : node.Busy s) (hfits : node.windowFits) :
    node.Sound s where
  window before hbefore := atLeast_of_le atLeast_workers (h.within before hbefore)
  launched_once := h.launched_lt.1
  recorded_once := h.mem_recorded.1
  recorded_lt i hi := ((h.mem_recorded.2 i).1 hi).1.2
  own := h.own
  complete hnone i hi := by
    refine (h.mem_recorded.2 i).2 ⟨⟨?_, hi⟩, hnone ▸ not_mem_nil⟩
    rcases hbusy with hbusy | hcursor
    · rw [hnone, length_nil] at hbusy
      rw [length_eq_zero_of_workers hfits hbusy.symm] at hi
      exact absurd hi (Nat.not_lt_zero i)
    · exact hi.trans_le hcursor
  failed := by rw [h.failed_eq, isSome_firstFailure]
  tripped hfast hfailed := by
    obtain ⟨before, i, outcome, after, htripped, -⟩ := h.tripped hfast hfailed
    exact ⟨before, i, outcome, after, htripped⟩
  untripped := h.untripped

end ParallelNode

/-- A parallel group runs each of its children once, within its window, if and only if the window is
a whole number or has a place for each child. -/
theorem runParallelGroup_iff (node : ParallelNode) : node.RunsAsItShould ↔ node.windowFits := by
  rw [RunsAsItShould, start_isOk_iff]
  refine ⟨And.left, fun hfits => ⟨hfits, fun s hs => ?_⟩⟩
  obtain ⟨hreach, hbusy⟩ := reach_of_reachable hs
  exact hreach.sound hbusy hfits

/-- Three steps of a job in a window of one step and a half. -/
theorem exists_group_not_started : ∃ node : ParallelNode, node.children.length = 3 ∧
    node.maxParallel = some (.finite (3 / 2)) ∧ node.start = .error .typeError ∧
    ¬ node.RunsAsItShould := by
  let node : ParallelNode := {
    failFast := true
    maxParallel := some (.finite (3 / 2))
    children := [⟨{ name := "a" }, 0⟩, ⟨{ name := "b" }, 1⟩, ⟨{ name := "c" }, 2⟩]
    distinct := by decide }
  have hpending : node.pendingPlaces = .error .typeError := by
    have hfloor : ⌊(3 / 2 : ℚ)⌋₊ = 1 := by norm_num
    norm_num [node, pendingPlaces, limit, JsNumber.isTruthy, JsNumber.isPositive, hfloor]
  have hstart : node.start = .error .typeError := by
    rw [start, hpending]
    rfl
  refine ⟨node, rfl, rfl, hstart, fun h => ?_⟩
  obtain ⟨s, hs⟩ := h.1
  rw [hstart] at hs
  cases hs

end Kici
