import Kici.Trigger.Matcher

/-!
# Deferred paths

A decision made while the changed files of an event are unavailable agrees, once the
agent has decided its deferred `paths`, with the decision made on the changed files
(`matched_iff_of_deferred`).

The checks of a trigger on the changed files settle those made without them
(`matchTrigger_settles`): only `checkTriggerPaths` reads them, and what it leaves to the
agent is noted. The scan of the triggers is by induction on their list, where the paths
deferred so far are those of triggers the changed files do not match.
-/

namespace Kici

open Checked Except Check List

variable {paths : List JsString}

/-- The event, with the changed files fetched. -/
def SimulatedEvent.withDiff (event : SimulatedEvent) (files : List JsString) : SimulatedEvent :=
  { event with changedFiles := some files, changedFilesStatus := some .fetched }

/-- Whether `runs` is what a decision comes to, once the agent has decided its deferred
paths on the changed files. -/
def WorkflowDecision.ComesTo (d : WorkflowDecision) (rt : MatchRuntime) (files : List JsString)
    (runs : Bool) : Prop :=
  Checked.ComesTo (fun deferredPaths => rt.evaluateDeferredPaths deferredPaths files .fetched)
    (⟨d.matched, d.checks, d.deferredPaths⟩ : Checked TraceEntry (List (List JsString))) runs

namespace MatchRuntime

open Check

variable {rt : MatchRuntime} {event : SimulatedEvent} {files : List JsString} {value : Json}
  {check : JsString}

/-! ## Checks that do not depend on the changed files -/

@[simp]
theorem plain_traced {check pattern : JsString} {passed : Bool}
    {reason : Option JsString} : Plain (rt.traced check pattern value passed reason) := by
  refine .bind fun value x hx => ?_
  rw [← ok.inj hx]

@[simp]
theorem plain_checkEventType {expected : JsString} : Plain (rt.checkEventType event expected) :=
  plain_traced

@[simp]
theorem plain_checkIncludes {allowed : List JsString} :
    Plain (rt.checkIncludes check allowed value) := .when plain_traced

@[simp]
theorem plain_checkAction {actions : List JsString} : Plain (rt.checkAction event actions) :=
  plain_checkIncludes

@[simp]
theorem plain_checkEquals {check expected : JsString} :
    Plain (rt.checkEquals check expected value) := plain_traced

@[simp]
theorem plain_checkOptional {expected : Option JsString} :
    Plain (rt.checkOptional check expected value) := .when plain_traced

@[simp]
theorem plain_checkBranches {patterns : List LockBranchPattern} {branch : Json} :
    Plain (rt.checkBranches check patterns branch) := .when (.bind fun _ => plain_traced)

@[simp]
theorem plain_evaluateRepoFilter {repos : Option (List LockBranchPattern)} :
    Plain (rt.evaluateRepoFilter event repos) := by
  refine .when ?_
  split
  · exact .bind fun _ => plain_traced
  · exact plain_traced

@[simp]
theorem plain_evaluateCommitMessageFilter {m : Option LockTextMatch} :
    Plain (rt.evaluateCommitMessageFilter event m) := by
  unfold evaluateCommitMessageFilter
  split
  · exact plain_pass
  · split <;> exact plain_traced

@[simp]
theorem plain_checkPayload {payload : Json} {m not : Option PayloadMatch} :
    Plain (rt.checkPayload payload m not) := by
  refine .all ?_
  simp only [forall_mem_cons]
  exact ⟨.when (.bind fun _ => plain_traced), .when (.bind fun _ => plain_traced), by simp⟩

@[simp]
theorem plain_checkCommentSource {source : CommentSource} :
    Plain (rt.checkCommentSource event source) := by
  refine .bind fun fromPr => ?_
  cases source <;> exact plain_traced

@[simp]
theorem plain_checkCommentBody {bodyMatch : LockBranchPattern} :
    Plain (rt.checkCommentBody event bodyMatch) := by
  unfold checkCommentBody
  simp only
  split <;> exact .bind fun _ => plain_traced

@[simp]
theorem plain_checkBatchEvent : Plain (rt.checkBatchEvent event) := by
  rw [checkBatchEvent]
  split
  · exact plain_checkEquals.andThen plain_traced
  · split <;> exact plain_traced

/-- Only the triggers of pushes and pull requests leave notes. -/
theorem plain_matchTrigger {trigger : LockTrigger} (hpr : ∀ t, trigger ≠ .pr t)
    (hpush : ∀ t, trigger ≠ .push t) : Plain (rt.matchTrigger event trigger) := by
  cases trigger with
  | pr t => exact absurd rfl (hpr t)
  | push t => exact absurd rfl (hpush t)
  | comment t =>
    refine .all ?_
    simp only [forall_mem_cons]
    refine ⟨plain_checkEventType, plain_checkAction, ?_, ?_, plain_evaluateRepoFilter, by simp⟩
    · cases t.source <;> simp [plain_pass]
    · cases t.bodyMatch <;> simp [plain_pass]
  | status t =>
    refine .all ?_
    simp only [forall_mem_cons]
    exact ⟨plain_checkEventType, .when (.bind fun _ => plain_traced), plain_checkIncludes,
      plain_evaluateRepoFilter, by simp⟩
  | other =>
    rintro x hx
    rw [← ok.inj hx]
  | tag | review | reviewComment | release | dispatch | create | delete | workflowRun | fork | star |
      watch | webhook | kiciEvent | workflowComplete | workflowsFailedBatch | jobComplete |
      genericWebhook | schedule | lifecycle =>
    exact .all (by simp)

/-! ## Checks on the changed files -/

/-- Without the changed files, `paths` are left to the agent. -/
theorem checkTriggerPaths_of_unavailable
    (hunavailable : event.changedFilesStatus = some .unavailable)
    (hrange : isDeferrableRange (resolveDiffRange event))
    (hpaths : paths ≠ []) :
    ∃ traces, rt.checkTriggerPaths event paths = .ok ⟨true, traces, some paths⟩ := by
  have hmatches : rt.matchPathPatterns paths (event.changedFiles.getD []) (some .unavailable) =
      .ok true := by
    rw [matchPathPatterns, if_neg hpaths, if_pos rfl]
  simp only [checkTriggerPaths, when, if_pos hpaths, hunavailable, hmatches, hrange,
    decide_true, Bool.and_true, Bool.true_eq_false, if_true, if_false]
  exact ⟨_, rfl⟩

/-- With the changed files, `paths` are decided. -/
theorem checkTriggerPaths_withDiff (hpaths : paths ≠ [])
    {x : Checked TraceEntry (List JsString)}
    (h : rt.checkTriggerPaths (event.withDiff files) paths = .ok x) :
    rt.matchPathPatterns paths files (some .fetched) = .ok x.passed ∧ x.note = none := by
  simp only [checkTriggerPaths, when, if_pos hpaths, SimulatedEvent.withDiff,
    Option.getD_some] at h
  cases hm : rt.matchPathPatterns paths files (some .fetched) with
  | error err =>
    rw [hm] at h
    cases h
  | ok passed =>
    rw [hm] at h
    obtain rfl := ok.inj h
    exact ⟨rfl, rfl⟩

/-- What the check of the `paths` leaves to the agent is decided by the changed files. -/
theorem checkTriggerPaths_settles (hunavailable : event.changedFilesStatus = some .unavailable)
    (hrange : isDeferrableRange (resolveDiffRange event)) (paths : List JsString) :
    Settles (fun paths => rt.matchPathPatterns paths files (some .fetched))
      (rt.checkTriggerPaths (event.withDiff files) paths) (rt.checkTriggerPaths event paths) := by
  by_cases hpaths : paths = []
  · simp only [checkTriggerPaths, when, hpaths, ne_eq, not_true_eq_false, if_false]
    exact plain_pass.settles
  obtain ⟨traces, hdeferred⟩ : ∃ traces, rt.checkTriggerPaths event paths = _ :=
    checkTriggerPaths_of_unavailable hunavailable hrange hpaths
  refine ⟨fun y hy => (checkTriggerPaths_withDiff hpaths hy).2, fun x y hx hy => ?_⟩
  obtain rfl := ok.inj (hdeferred.symm.trans hx)
  simp only [ComesTo, if_true]
  exact (checkTriggerPaths_withDiff hpaths hy).1

/-- The checks of a trigger on the changed files settle those made without them. -/
theorem matchTrigger_settles (hunavailable : event.changedFilesStatus = some .unavailable)
    (hrange : isDeferrableRange (resolveDiffRange event)) (trigger : LockTrigger) :
    Settles (fun paths => rt.matchPathPatterns paths files (some .fetched))
      (rt.matchTrigger (event.withDiff files) trigger) (rt.matchTrigger event trigger) := by
  have hplain (hpr : ∀ t, trigger ≠ .pr t) (hpush : ∀ t, trigger ≠ .push t) :
      Settles (fun paths => rt.matchPathPatterns paths files (some .fetched))
        (rt.matchTrigger event trigger) (rt.matchTrigger event trigger) :=
    (plain_matchTrigger hpr hpush).settles
  -- The check of the paths, with the checks after it.
  have hpaths (paths : List JsString) (m : Option LockTextMatch)
      (repos : Option (List LockBranchPattern)) :
      Settles (fun paths => rt.matchPathPatterns paths files (some .fetched))
        (andThen (rt.checkTriggerPaths (event.withDiff files) paths) (all
          [rt.evaluateCommitMessageFilter event m, rt.evaluateRepoFilter event repos]))
        (andThen (rt.checkTriggerPaths event paths) (all
          [rt.evaluateCommitMessageFilter event m, rt.evaluateRepoFilter event repos])) :=
    (checkTriggerPaths_settles hunavailable hrange paths).andThen_left (.all (by simp))
  cases trigger with
  | pr t =>
    have htype : Plain (rt.checkEventType event "pull_request") := plain_checkEventType
    refine .andThen_right htype (.andThen_right plain_checkAction (.andThen_right plain_checkBranches
      (.andThen_right ?_ (hpaths t.paths t.commitMessage t.repos))))
    refine .when ?_
    split <;> simp
  | push t =>
    have htype : Plain (rt.checkEventType event "push") := plain_checkEventType
    exact .andThen_right htype (.andThen_right plain_checkBranches
      (hpaths t.paths t.commitMessage t.repos))
  | tag | comment | review | reviewComment | release | dispatch | create | delete | status |
      workflowRun | fork | star | watch | webhook | kiciEvent | workflowComplete |
      workflowsFailedBatch | jobComplete | genericWebhook | schedule | lifecycle | other =>
    exact hplain (by simp) (by simp)

/-! ## The scan of the triggers -/

variable {name : JsString} {i : ℕ} {traces traces' : List TraceEntry} {first : Option FirstDeferred}
  {deferredPaths : List (List JsString)} {trigger : LockTrigger}
  {triggers : List (Option LockTrigger)} {r d : WorkflowDecision}

/-- What the scan does at a trigger. -/
theorem scanTriggers_cons
    (h : rt.scanTriggers event name i traces first deferredPaths (some trigger :: triggers) = .ok d) :
    ∃ x, rt.matchTrigger event trigger = .ok x ∧
      (x.passed = false ∧ rt.scanTriggers event name (i + 1) (traces ++ x.traces) first deferredPaths
          triggers = .ok d ∨
        x.passed ∧ x.note = none ∧ d.matched ∧ d.deferredPaths = none ∨
        x.passed ∧ ∃ paths, x.note = some paths ∧
          rt.scanTriggers event name (i + 1) traces
            (first.or (some ⟨i, x.traces, trigger.type⟩)) (deferredPaths ++ [paths])
            triggers = .ok d) := by
  cases hx : rt.matchTrigger event trigger with
  | error err =>
    simp only [scanTriggers, hx] at h
    cases h
  | ok x =>
    refine ⟨x, rfl, ?_⟩
    simp only [scanTriggers, hx, bind, Except.bind] at h
    cases hp : x.passed with
    | false =>
      rw [hp] at h
      exact .inl ⟨rfl, h⟩
    | true =>
      rw [hp, if_pos rfl] at h
      cases hnote : x.note with
      | none =>
        rw [hnote] at h
        rw [← ok.inj h]
        exact .inr (.inl ⟨rfl, rfl, rfl, rfl⟩)
      | some paths =>
        rw [hnote] at h
        exact .inr (.inr ⟨rfl, paths, rfl, h⟩)

/-- Deferred paths are decided in turn, until one list of them matches. -/
theorem evaluateDeferredPaths_append {b : Bool}
    (h : rt.evaluateDeferredPaths deferredPaths files .fetched = .ok b) (paths : List JsString) :
    rt.evaluateDeferredPaths (deferredPaths ++ [paths]) files .fetched =
      if b then .ok true else rt.matchPathPatterns paths files (some .fetched) := by
  simp only [evaluateDeferredPaths, ne_eq, not_true_eq_false, if_false] at h ⊢
  induction deferredPaths with
  | nil =>
    obtain rfl := ok.inj h
    cases hm : rt.matchPathPatterns paths files (some .fetched) with
    | error => simp [hm, bind, Except.bind]
    | ok c => cases c <;> simp [anyM, hm, bind, Except.bind, pure, Except.pure]
  | cons ps deferredPaths ih =>
    simp only [cons_append, anyM] at h ⊢
    cases hm : rt.matchPathPatterns ps files (some .fetched) with
    | error err =>
      rw [hm] at h
      cases h
    | ok c =>
      rw [hm] at h
      cases c with
      | true =>
        obtain rfl := ok.inj h
        rfl
      | false => exact ih h

/-- Once the paths deferred so far are decided in favour, so is the workflow. -/
theorem comesTo_true_of_scanTriggers
    (heval : rt.evaluateDeferredPaths deferredPaths files .fetched = .ok true) (hfirst : first.isSome)
    (hd : rt.scanTriggers event name i traces first deferredPaths triggers = .ok d) :
    d.ComesTo rt files true := by
  induction triggers generalizing i traces first deferredPaths with
  | nil =>
    obtain ⟨first, rfl⟩ := Option.isSome_iff_exists.1 hfirst
    rw [← ok.inj hd]
    exact heval
  | cons trigger triggers ih =>
    cases trigger with
    | none => exact ih heval hfirst hd
    | some trigger =>
      obtain ⟨x, -, ⟨-, h⟩ | ⟨-, -, hmatched, hnone⟩ | ⟨-, paths, -, h⟩⟩ := scanTriggers_cons hd
      · exact ih heval hfirst h
      · simp [WorkflowDecision.ComesTo, Checked.ComesTo, hmatched, hnone]
      · exact ih (evaluateDeferredPaths_append heval paths) (by simp) h

/-- The scan on the changed files decides what the scan without them comes to, where the
paths deferred so far are decided against. -/
theorem scanTriggers_comesTo (hunavailable : event.changedFilesStatus = some .unavailable)
    (hrange : isDeferrableRange (resolveDiffRange event))
    (heval : rt.evaluateDeferredPaths deferredPaths files .fetched = .ok false)
    (hr : rt.scanTriggers (event.withDiff files) name i traces' none [] triggers = .ok r)
    (hd : rt.scanTriggers event name i traces first deferredPaths triggers = .ok d) :
    d.ComesTo rt files r.matched := by
  induction triggers generalizing i traces traces' first deferredPaths with
  | nil =>
    have hmatched : r.matched = false := by rw [← ok.inj hr]; rfl
    rw [hmatched]
    cases first with
    | none =>
      rw [← ok.inj hd]
      rfl
    | some first =>
      rw [← ok.inj hd]
      exact heval
  | cons trigger triggers ih =>
    cases trigger with
    | none => exact ih heval hr hd
    | some trigger =>
      have hsettles : Settles (fun paths => rt.matchPathPatterns paths files (some .fetched))
          (rt.matchTrigger (event.withDiff files) trigger) (rt.matchTrigger event trigger) :=
        matchTrigger_settles hunavailable hrange trigger
      obtain ⟨y, hy, hdirect⟩ := scanTriggers_cons hr
      obtain ⟨x, hx, hdeferred⟩ := scanTriggers_cons hd
      have hto := hsettles.comesTo x y hx hy
      have hplain := hsettles.plain y hy
      -- The direct scan goes on, or ends at a trigger that matches.
      have hdirect : if y.passed then r.matched else
          ∃ traces', rt.scanTriggers (event.withDiff files) name (i + 1) traces' none [] triggers =
            .ok r := by
        rcases hdirect with ⟨hf, h⟩ | ⟨hp, -, h, -⟩ | ⟨-, _, hnote, -⟩
        · simp only [hf, Bool.false_eq_true, if_false]
          exact ⟨_, h⟩
        · rwa [if_pos hp]
        · rw [hplain] at hnote
          cases hnote
      rcases hdeferred with ⟨hf, h⟩ | ⟨hp, hnote, hmatched, hnone⟩ | ⟨hp, paths, hnote, h⟩
      · -- The trigger matches in neither scan.
        simp only [ComesTo, hf, Bool.false_eq_true, if_false] at hto
        simp only [hto, Bool.false_eq_true, if_false] at hdirect
        obtain ⟨traces', hr⟩ := hdirect
        exact ih heval hr h
      · -- The trigger matches outright, in both scans.
        simp only [ComesTo, hp, if_true, hnote] at hto
        rw [if_pos hto] at hdirect
        simp [WorkflowDecision.ComesTo, ComesTo, hmatched, hnone, hdirect]
      · -- The paths of the trigger are deferred, and the direct scan decides them.
        simp only [ComesTo, hp, if_true, hnote] at hto
        have heval' := evaluateDeferredPaths_append heval paths
        rw [if_neg Bool.false_ne_true, hto] at heval'
        cases hy : y.passed with
        | true =>
          rw [hy] at hdirect heval'
          rw [show r.matched from hdirect]
          exact comesTo_true_of_scanTriggers heval' (by simp) h
        | false =>
          rw [hy] at hdirect heval'
          obtain ⟨traces', hr⟩ := hdirect
          exact ih heval' hr h

end MatchRuntime

open MatchRuntime in
/-- On an event whose changed files only an agent can tell, a workflow matches, and its
deferred paths, if there are any, are decided in favour, if and only if it matches
the event with the changed files, where neither decision throws. The agent's decision
does not throw then. -/
theorem matched_iff_of_deferred {rt : MatchRuntime} {workflow : LockWorkflow}
    {event : SimulatedEvent} {files : List JsString} {d r : WorkflowDecision}
    (hunavailable : event.changedFilesStatus = some .unavailable)
    (hrange : isDeferrableRange (resolveDiffRange event))
    (hd : rt.matchWorkflowTriggers event workflow = .ok d)
    (hr : rt.matchWorkflowTriggers (event.withDiff files) workflow = .ok r) :
    (r.matched ↔ d.matched ∧ ∀ deferredPaths ∈ d.deferredPaths,
      rt.evaluateDeferredPaths deferredPaths files .fetched = .ok true) ∧
    (d.matched → ∀ deferredPaths ∈ d.deferredPaths,
      rt.evaluateDeferredPaths deferredPaths files .fetched = .ok r.matched) := by
  have hto : d.ComesTo rt files r.matched := by
    rw [matchWorkflowTriggers] at hd hr
    by_cases hnone : workflow.triggers = []
    · rw [if_pos hnone] at hd hr
      rw [← ok.inj hd, ← ok.inj hr]
      rfl
    · rw [if_neg hnone] at hd hr
      exact scanTriggers_comesTo hunavailable hrange rfl hr hd
  refine ⟨hto.iff, fun hmatched deferredPaths hsome => ?_⟩
  rw [Option.mem_def] at hsome
  simpa [WorkflowDecision.ComesTo, ComesTo, hmatched, hsome] using hto

/-! ## Decisions that throw -/

/-- The runtime as far as it goes for glob patterns that are paths, and for regular
expressions of letters. -/
def literalRuntime : MatchRuntime where
  picomatch pattern _ :=
    if pattern = [] then .error .typeError
    else .ok fun value => match value with
      | .str s => .ok (s = pattern)
      | _ => .error .typeError
  regExp source _ :=
    if source.all fun c => 0x61 ≤ c ∧ c ≤ 0x7A then some fun s => JsString.includes s source
    else none
  safeRegex _ _ := true
  jsonPath _ _ := .ok []
  stringify _ := "{}"
  toStr value := match value with
    | .str s => s
    | _ => []
  exceeds _ _ := false
  toLowerCase s := s

/-- A push to an existing branch, of which the changed files are unavailable. -/
def undiffedPush : SimulatedEvent where
  type := "push"
  payload := [("before", .str "1"), ("after", .str "2")]
  targetBranch := "main"
  changedFilesStatus := some .unavailable

/-- A push that changed a path is decided on the agent as it would have been before. -/
theorem matched_iff_of_deferred_push : ∃ rt workflow event files, ∃ d r : WorkflowDecision,
    MatchRuntime.matchWorkflowTriggers rt event workflow = .ok d ∧
    MatchRuntime.matchWorkflowTriggers rt (event.withDiff files) workflow = .ok r ∧
    d.deferredPaths = some [[js "src"]] ∧
    (r.matched ↔ d.matched ∧ ∀ deferredPaths ∈ d.deferredPaths,
      rt.evaluateDeferredPaths deferredPaths files .fetched = .ok true) := by
  obtain ⟨d, hd, hpaths⟩ : ∃ d, literalRuntime.matchWorkflowTriggers undiffedPush
      ⟨"ci", [some (.push { paths := ["src"] })]⟩ = .ok d ∧ d.deferredPaths = some [[js "src"]] :=
    ⟨_, rfl, rfl⟩
  obtain ⟨r, hr⟩ : ∃ r, literalRuntime.matchWorkflowTriggers (undiffedPush.withDiff ["docs"])
      ⟨"ci", [some (.push { paths := ["src"] })]⟩ = .ok r := ⟨_, rfl⟩
  exact ⟨_, _, _, _, d, r, hd, hr, hpaths, (matched_iff_of_deferred rfl (by decide) hd hr).1⟩

/-- The workflow matches the event with the changed files if and only if it matches the
one without them, with the deferred paths decided in favour, where a decision that
throws is none. -/
def DeferralAgrees (rt : MatchRuntime) (workflow : LockWorkflow) (event : SimulatedEvent)
    (files : List JsString) : Prop :=
  (∃ r, rt.matchWorkflowTriggers (event.withDiff files) workflow = .ok r ∧ r.matched) ↔
    ∃ d, rt.matchWorkflowTriggers event workflow = .ok d ∧ d.matched ∧
      ∀ deferredPaths ∈ d.deferredPaths,
        rt.evaluateDeferredPaths deferredPaths files .fetched = .ok true

/-- The two decisions reach different triggers, and where one of these throws only one
decision does: the one without the changed files, which goes on past a provisional
match, or the one with them, which reads more paths. -/
theorem exists_deferral_disagrees : ∃ rt event files, ∃ first second : LockWorkflow,
    event.changedFilesStatus = some .unavailable ∧ isDeferrableRange (resolveDiffRange event) ∧
    (∃ err, rt.matchWorkflowTriggers event first = .error err) ∧
    (∃ err, rt.matchWorkflowTriggers (event.withDiff files) second = .error err) ∧
    ¬DeferralAgrees rt first event files ∧ ¬DeferralAgrees rt second event files := by
  refine ⟨literalRuntime, undiffedPush, ["src"],
    ⟨"ci", [some (.push { paths := ["src"] }), some (.push { branches := [⟨.regex, "(", none⟩] })]⟩,
    ⟨"ci", [some (.push { paths := ["!"] }), some (.push {})]⟩,
    rfl, by decide, ⟨_, rfl⟩, ⟨_, rfl⟩, fun h => ?_, fun h => ?_⟩
  · obtain ⟨d, hd, -⟩ := h.1 ⟨_, rfl, rfl⟩
    cases hd
  · obtain ⟨r, hr, -⟩ := h.2 ⟨_, rfl, rfl, fun _ hsome => by cases hsome⟩
    cases hr

end Kici
