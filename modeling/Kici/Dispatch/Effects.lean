import Kici.Dispatch.DispatchSystem

/-!
# What a step of the dispatch does

A statement of the dispatch of a run has one of a few effects on the rows of the jobs, on their
ids and on the log (`Effect`). Which ones it can have depends on where the call is whose statement
it is (`PipelineCall.Issues`), and every step has one of them (`effect_step`).
-/

namespace Kici

open List ExecutionJob

variable {κ : Type}

/-! ## Rows but for the marks of the scheduler -/

/-- A row but for the mark that its needs are satisfied. -/
def ExecutionJob.unmarked (row : ExecutionJob) : ExecutionJob := { row with needsSatisfied := false }

/-- Rows that are the same but for the mark agree on all that does not depend on it. -/
theorem ExecutionJob.eq_of_unmarked {α : Type} {r row : ExecutionJob} (h : r.unmarked = row.unmarked)
    (f : ExecutionJob → α) (hf : ∀ r, f r.unmarked = f r) : f row = f r := by
  rw [← hf r, h, hf row]

namespace RunDb

variable {db db' db'' : RunDb} {row : ExecutionJob}

/-- The rows are the same but for the marks. -/
def SameJobs (db db' : RunDb) : Prop :=
  db'.executionJobs.rows.map unmarked = db.executionJobs.rows.map unmarked

theorem SameJobs.refl (db : RunDb) : db.SameJobs db := rfl

theorem SameJobs.symm (h : db.SameJobs db') : db'.SameJobs db := Eq.symm h

theorem SameJobs.trans (h : db.SameJobs db') (h' : db'.SameJobs db'') : db.SameJobs db'' := Eq.trans h' h

theorem SameJobs.exists_mem (h : db.SameJobs db') (hrow : row ∈ db'.executionJobs) :
    ∃ r ∈ db.executionJobs, r.unmarked = row.unmarked := by
  have hmem : row.unmarked ∈ db.executionJobs.rows.map unmarked :=
    h ▸ List.mem_map_of_mem hrow
  exact List.mem_map.1 hmem

/-- An update that only sets marks. -/
theorem sameJobs_update {u : Update jobId} (h : ∀ r, (u.set r).unmarked = r.unmarked) :
    db.SameJobs (db.update u) := by
  have hmarks : unmarked ∘ u.apply = unmarked := by
    funext r
    rw [Function.comp_apply, Update.apply]
    split
    · exact h r
    · rfl
  show (db.executionJobs.rows.map u.apply).map unmarked = _
  rw [List.map_map, hmarks]

theorem sameJobs_claim {jobName : JsString} : db.SameJobs (db.claim jobName) :=
  sameJobs_update fun _ => rfl

theorem sameJobs_stampReady {jobId : String} : db.SameJobs (db.stampReady jobId) :=
  sameJobs_update fun _ => rfl

theorem sameJobs_insertEdgesForRun {jobs : List MaterializedJob} {map : JsObject (List JsString)} :
    db.SameJobs (db.insertEdgesForRun jobs map) := by
  have hinsert : db.SameJobs (db.insertNeeds (edgeRowsForRun jobs map)) := rfl
  exact hinsert.trans (sameJobs_update fun _ => rfl)

end RunDb

namespace NeedsState

variable {s t : NeedsState} {staticJobs : List LockJob}

/-- The scheduler of needs only sets marks, but for the statuses that are written. -/
theorem sameJobs_step {a : NeedsAction}
    (ha : ∀ jobId jobName status, a ≠ .writeStatus jobId jobName status)
    (h : s.step staticJobs a = some t) : s.db.SameJobs t.db := by
  cases a with
  | writeStatus jobId jobName status => exact absurd rfl (ha jobId jobName status)
  | evaluateDownstreams completedJobName completedStatus =>
    simp only [step] at h
    split at h
    · cases h
      exact .refl _
    · cases h
  | checkAllUpstreamsSatisfied | recomputeNeedsSatisfied =>
    cases h
    exact .refl _
  | resolveGroupEdges =>
    cases h
    exact rfl
  | next k =>
    simp only [step] at h
    split at h
    · next call _ =>
      cases h
      rcases db_nextOf (s := s) call with hdb | ⟨jobName, hdb⟩
      · exact hdb ▸ .refl _
      · exact hdb ▸ RunDb.sameJobs_claim
    · cases h

end NeedsState

/-! ## Effects -/

/-- What a statement does to the rows of the jobs, to their ids and to the log. -/
inductive Effect
  /-- Marks of the scheduler of needs are set. -/
  | marks
  | mint (jobId : String) (jobName : JsString)
  | hand (jobId : String) (mat : MaterializedJob)
  | register (row : ExecutionJob)
  | ungate (guard : ExecutionJob → Bool)
  | restamp (release : WaveRelease)
  | status (jobId : String) (jobName : JsString) (status : ExecutionJobStatus)
  | delete (jobName : JsString)

namespace DispatchState

variable {κ : Type} {s t : DispatchState κ} {jobId : String} {name : JsString}
  {row : ExecutionJob} {mat : MaterializedJob} {d : DispatchRun}
  {answer : DispatchAnswer}

/-- The effect of a step from a state to another one, which may differ besides in what is stored
and in what is done next. -/
inductive Executes (d : DispatchRun) (s t : DispatchState κ) : Effect → Prop
  | marks (hjobs : s.db.SameJobs t.db) (hminted : t.minted = s.minted) (hlog : t.log = s.log) :
      s.Executes d t .marks
  | mint {id : String} {name : JsString} (hunused : s.unused id = true) (hdb : t.db = s.db)
      (hminted : t.minted = s.minted ++ [(id, name)]) (hlog : t.log = s.log) :
      s.Executes d t (.mint id name)
  | hand {id : String} {m : MaterializedJob} (hunused : s.unused id = true) (hdb : t.db = s.db)
      (hminted : t.minted = s.minted ++ [(id, m.expandedName)])
      (hlog : t.log = s.log ++ [.dispatched id m]) : s.Executes d t (.hand id m)
  | register {r : ExecutionJob} (hdb : t.db = s.db.insertTracked r) (hminted : t.minted = s.minted)
      (hlog : t.log = s.log) : s.Executes d t (.register r)
  | ungate {guard : ExecutionJob → Bool}
      (hdb : t.db = s.db.update { guard, set := fun r => { r with waveGated := false } })
      (hminted : t.minted = s.minted) (hlog : t.log = s.log) : s.Executes d t (.ungate guard)
  | restamp {release : WaveRelease} (hdb : t.db = s.db.restamp release) (hminted : t.minted = s.minted)
      (hlog : t.log = s.log) : s.Executes d t (.restamp release)
  | status {id : String} {name : JsString} {status : ExecutionJobStatus}
      (hreportable : s.reportable d id name status = true) (hdb : t.db = s.db.writeStatus id name status)
      (hminted : t.minted = s.minted) (hlog : t.log = s.log ++ s.finishedBy id name status) :
      s.Executes d t (.status id name status)
  | delete {name : JsString} (hdb : t.db = (s.deleteSynthetic name).db) (hminted : t.minted = s.minted)
      (hlog : t.log = s.log) : s.Executes d t (.delete name)

/-- The effects of the dispatch of a workflow. -/
def StaticIssues (s : DispatchState κ) (answer : DispatchAnswer) : Effect → Prop
  | .marks | .mint .. => True
  | .hand jobId mat => answer = .accepted jobId ∧ ∃ row todo jobs,
    s.static = .tasks (.hand mat row :: todo) jobs
  | .register row => ∃ todo jobs, s.static = .record (row :: todo) jobs
  | _ => False

end DispatchState

/-- The effects of the next statement of a call. -/
def PipelineCall.Issues (answer : DispatchAnswer) : PipelineCall κ → Effect → Prop
  | _, .marks | _, .mint .. | _, .status .. => True
  | .ready _ _ _ (.dispatch pending), .hand jobId mat => answer = .accepted jobId ∧ mat = pending.mat
  | .ready _ jobName _ (.swapDelete _), .delete name => name = jobName
  | .ready _ jobName _ (.swapInsert jobId), .register row => row = { pendingRow jobName with jobId }
  | .wave _ (.release release), .ungate guard => guard = fun r => decide (r.jobName = release.jobName)
  | .wave _ (.skipUngate ..), .ungate _ => True
  | .wave _ (.restamp release), .restamp r => r = release
  | .init _ (.tasks (.hand mat _ :: _) _), .hand jobId mat' => answer = .accepted jobId ∧ mat' = mat
  | .init _ (.register row _ _), .register row' => row' = row
  | _, _ => False

/-- What hands over a job: `dispatchReadyJob`, or what an init job leads to. -/
theorem PipelineCall.Issues.of_hand {call : PipelineCall κ} {answer : DispatchAnswer} {jobId : String}
    {mat : MaterializedJob} (h : call.Issues answer (.hand jobId mat)) :
    (∃ c jobName wave pending, call = .ready c jobName wave (.dispatch pending) ∧
      answer = .accepted jobId ∧ mat = pending.mat) ∨
      ∃ c row todo result, call = .init c (.tasks (.hand mat row :: todo) result) := by
  generalize he : Effect.hand jobId mat = e at h
  unfold PipelineCall.Issues at h
  split at h
  case h_4 =>
    cases he
    exact .inl ⟨_, _, _, _, rfl, h.1, h.2⟩
  case h_10 =>
    cases he
    obtain ⟨-, rfl⟩ := h
    exact .inr ⟨_, _, _, _, rfl⟩
  case h_12 => exact h.elim
  all_goals cases he

/-- The call is at its first statement. -/
def PipelineCall.Begins : PipelineCall κ → Prop
  | .ready _ _ none .hasPendingHold | .wave _ (.readBase ..) | .init _ (.await _) => True
  | _ => False

namespace DispatchState

variable {κ : Type} {s t u : DispatchState κ} {jobId : String} {jobName : JsString}
 {mat : MaterializedJob} {d : DispatchRun} {c : κ} {e : Effect}
  {answer : DispatchAnswer} {call : PipelineCall κ}

/-- The effects of a step. -/
def Issues (s : DispatchState κ) : DispatchAction κ → Effect → Prop
  | .static answer, e => s.StaticIssues answer e
  | .next k answer, e => ∃ call, s.calls[k]? = some call ∧ call.Issues answer e
  | _, .marks | _, .status .. => True
  | _, _ => False

/-- A statement of a call: its effect, and that it leaves alone what others do next. -/
structure Performs (d : DispatchRun) (s t : DispatchState κ) (call : PipelineCall κ)
    (answer : DispatchAnswer) : Prop where
  effect : ∃ e, s.Executes d t e ∧ call.Issues answer e
  static : t.static = s.static
  calls : t.calls = s.calls

theorem executes_quiet (hdb : t.db = s.db) (hminted : t.minted = s.minted) (hlog : t.log = s.log) :
    s.Executes d t .marks := .marks (hdb ▸ .refl _) hminted hlog

theorem Performs.refl (s : DispatchState κ) (call : PipelineCall κ) (answer : DispatchAnswer) :
    s.Performs d s call answer :=
  ⟨⟨.marks, executes_quiet rfl rfl rfl, trivial⟩, rfl, rfl⟩

theorem unused_of_fresh (h : s.fresh jobId) : s.unused jobId := (Bool.and_eq_true_iff.1 h).1

/-- A task that gives a job an id. -/
theorem performs_mint (hunused : s.unused jobId) :
    s.Performs d (s.mint jobId jobName) call answer :=
  ⟨⟨.mint jobId jobName, .mint hunused rfl rfl rfl, trivial⟩, rfl, rfl⟩

theorem performs_store {pending : PendingJobContext} (hunused : s.unused jobId) :
    s.Performs d ((s.store c pending).mint jobId jobName) call answer :=
  ⟨⟨.mint jobId jobName, .mint hunused rfl rfl rfl, trivial⟩, rfl, rfl⟩

theorem performs_status {status : ExecutionJobStatus}
    (hreportable : s.reportable d jobId jobName status) :
    s.Performs d (s.writeStatus jobId jobName status) call answer :=
  ⟨⟨.status jobId jobName status, .status hreportable rfl rfl rfl, trivial⟩, rfl, rfl⟩

theorem deleteSynthetic_control (s : DispatchState κ) (jobName : JsString) :
    (s.deleteSynthetic jobName).minted = s.minted ∧
    (s.deleteSynthetic jobName).log = s.log ∧ (s.deleteSynthetic jobName).static = s.static ∧
      (s.deleteSynthetic jobName).calls = s.calls := by
  rw [deleteSynthetic]
  split <;> exact ⟨rfl, rfl, rfl, rfl⟩

theorem performs_waveNext {point : WavePoint} {next : Option (PipelineCall κ)}
    (h : s.waveNext d c point answer = some (t, next)) : s.Performs d t (.wave c point) answer := by
  unfold waveNext at h
  split at h
  case h_1 | h_5 =>
    cases h
    exact .refl ..
  · obtain ⟨-, h⟩ := Option.ite_none_right_eq_some.1 h
    split at h <;> cases h <;> exact .refl ..
  · cases h
    exact ⟨⟨.ungate _, .ungate rfl rfl rfl, rfl⟩, rfl, rfl⟩
  · cases h
    exact ⟨⟨.restamp _, .restamp rfl rfl rfl, rfl⟩, rfl, rfl⟩
  · split at h <;> cases h <;> exact .refl ..
  · cases h
    exact ⟨⟨.ungate _, .ungate rfl rfl rfl, trivial⟩, rfl, rfl⟩
  · obtain ⟨hreportable, heq⟩ := Option.ite_none_right_eq_some.1 h
    cases heq
    exact performs_status hreportable
  · cases h

theorem performs_initNext {point : InitPoint} {next : Option InitPoint}
    (h : s.initNext d c point answer = some (t, next)) : s.Performs d t (.init c point) answer := by
  unfold initNext at h
  split at h
  case h_1 | h_2 | h_7 | h_9 =>
    cases h
    exact .refl ..
  case h_3 | h_6 =>
    obtain ⟨hfresh, heq⟩ := Option.ite_none_right_eq_some.1 h
    cases heq
    exact performs_mint (unused_of_fresh hfresh)
  · obtain ⟨hunused, heq⟩ := Option.ite_none_right_eq_some.1 h
    cases heq
    exact performs_store (Bool.and_eq_true_iff.1 hunused).1
  · obtain ⟨hfresh, heq⟩ := Option.ite_none_right_eq_some.1 h
    cases heq
    exact ⟨⟨.hand _ _, .hand (unused_of_fresh hfresh) rfl rfl rfl, rfl, rfl⟩, rfl, rfl⟩
  · cases h
    exact ⟨⟨.marks, .marks RunDb.sameJobs_insertEdgesForRun rfl rfl, trivial⟩, rfl, rfl⟩
  · cases h
    exact ⟨⟨.register _, .register rfl rfl rfl, rfl⟩, rfl, rfl⟩
  · cases h

/-- An effect does not depend on what is stored and what is done next. -/
theorem Executes.congr (h : s.Executes d u e) (hdb : t.db = u.db) (hminted : t.minted = u.minted)
    (hlog : t.log = u.log) : s.Executes d t e := by
  cases h with
  | marks h₁ h₂ h₃ => exact .marks (hdb ▸ h₁) (hminted.trans h₂) (hlog.trans h₃)
  | mint h₁ h₂ h₃ h₄ => exact .mint h₁ (hdb.trans h₂) (hminted.trans h₃) (hlog.trans h₄)
  | hand h₁ h₂ h₃ h₄ => exact .hand h₁ (hdb.trans h₂) (hminted.trans h₃) (hlog.trans h₄)
  | register h₁ h₂ h₃ => exact .register (hdb.trans h₁) (hminted.trans h₂) (hlog.trans h₃)
  | ungate h₁ h₂ h₃ => exact .ungate (hdb.trans h₁) (hminted.trans h₂) (hlog.trans h₃)
  | restamp h₁ h₂ h₃ => exact .restamp (hdb.trans h₁) (hminted.trans h₂) (hlog.trans h₃)
  | status h₁ h₂ h₃ h₄ => exact .status h₁ (hdb.trans h₂) (hminted.trans h₃) (hlog.trans h₄)
  | delete h₁ h₂ h₃ => exact .delete (hdb.trans h₁) (hminted.trans h₂) (hlog.trans h₃)

/-- The statement of the dispatch of a workflow. -/
theorem effect_staticNext (h : s.staticNext d c s.static answer = some t) :
    ∃ e, s.Executes d t e ∧ s.StaticIssues answer e := by
  have hquiet : ∀ {phase calls}, t = { s with static := phase, calls } →
      ∃ e, s.Executes d t e ∧ s.StaticIssues answer e := by
    rintro phase calls rfl
    exact ⟨.marks, executes_quiet rfl rfl rfl, trivial⟩
  generalize hphase : s.static = phase at h
  unfold staticNext at h
  split at h
  case h_1 | h_2 | h_7 | h_8 | h_9 | h_11 | h_13 | h_15 =>
    cases h
    exact hquiet rfl
  case h_3 | h_6 =>
    obtain ⟨hfresh, heq⟩ := Option.ite_none_right_eq_some.1 h
    cases heq
    exact ⟨.mint _ _, .mint (unused_of_fresh hfresh) rfl rfl rfl, trivial⟩
  · obtain ⟨hunused, heq⟩ := Option.ite_none_right_eq_some.1 h
    cases heq
    exact ⟨.mint _ _, .mint (Bool.and_eq_true_iff.1 hunused).1 rfl rfl rfl, trivial⟩
  · obtain ⟨hfresh, heq⟩ := Option.ite_none_right_eq_some.1 h
    cases heq
    exact ⟨.hand _ _, .hand (unused_of_fresh hfresh) rfl rfl rfl, rfl, _, _, _, hphase⟩
  · cases h
    exact ⟨.register _, .register rfl rfl rfl, _, _, hphase⟩
  · cases h
    exact ⟨.marks, .marks RunDb.sameJobs_insertEdgesForRun rfl rfl, trivial⟩
  · cases h
    exact ⟨.marks, executes_quiet rfl rfl rfl, trivial⟩
  · cases h

/-- The dispatch of a workflow starts the tasks that wait for init jobs. -/
theorem mem_calls_staticNext {phase : StaticPhase}
    (h : s.staticNext d c phase answer = some t) (hcall : call ∈ t.calls) : call ∈ s.calls ∨
    call.Begins := by
  unfold staticNext at h
  split at h
  case h_15 =>
    cases h
    rcases mem_append.1 hcall with hold | hnew
    · exact .inl hold
    · obtain ⟨mat, -, rfl⟩ := List.mem_map.1 hnew
      exact .inr trivial
  case h_16 => cases h
  case h_3 | h_4 | h_5 | h_6 =>
    cases (Option.ite_none_right_eq_some.1 h).2
    exact .inl hcall
  all_goals
    cases h
    exact .inl hcall

/-- A call of the scheduler of waves goes on as one, or releases a child. -/
theorem next_waveNext {point : WavePoint} {next : PipelineCall κ}
    (h : s.waveNext d c point answer = some (t, some next)) : (∃ point', next = .wave c point') ∨
      ∃ release, point = .release release ∧ next = .ready c release.jobName (some release)
      .hasPendingHold := by
  unfold waveNext at h
  split at h
  · obtain ⟨-, hnext⟩ := Prod.mk.inj (Option.some.inj h)
    obtain ⟨baseJobName, -, rfl⟩ := Option.map_eq_some_iff.1 hnext
    exact .inl ⟨_, rfl⟩
  · obtain ⟨-, h⟩ := Option.ite_none_right_eq_some.1 h
    split at h <;> cases h <;> exact .inl ⟨_, rfl⟩
  · cases h
    exact .inr ⟨_, rfl, rfl⟩
  · cases h
  · cases h
  · split at h <;> cases h <;> exact .inl ⟨_, rfl⟩
  · cases h
    exact .inl ⟨_, rfl⟩
  · cases (Option.ite_none_right_eq_some.1 h).2
    exact .inl ⟨_, rfl⟩
  · cases h

section
variable [DecidableEq κ] {call : PipelineCall κ} {a : DispatchAction κ}

/-- Taking a job out of what is stored changes nothing else. -/
theorem performs_consume : s.Performs d (s.consume c jobName).1 call answer := by
  rw [consume]
  split <;> exact ⟨⟨.marks, executes_quiet rfl rfl rfl, trivial⟩, rfl, rfl⟩

theorem performs_readyNext {point : ReadyPoint} {next : Option ReadyPoint} {wave : Option WaveRelease}
    (h : s.readyNext d c jobName point answer = some (t, next)) :
    s.Performs d t (.ready c jobName wave point) answer := by
  unfold readyNext at h
  split at h
  case h_1 | h_2 | h_3 | h_7 | h_8 | h_11 | h_13 =>
    cases h
    exact .refl ..
  · split at h <;> cases h <;> exact .refl ..
  · cases h
    exact performs_consume
  · obtain ⟨hreportable, heq⟩ := Option.ite_none_right_eq_some.1 h
    cases heq
    exact performs_status hreportable
  · have hconsume : s.Performs d (s.consume c jobName).1 (.ready c jobName wave .consume) .ok :=
      performs_consume
    split at h
    · next heq =>
      cases h
      rwa [heq] at hconsume
    · next heq =>
      cases h
      rwa [heq] at hconsume
  · obtain ⟨hfresh, heq⟩ := Option.ite_none_right_eq_some.1 h
    cases heq
    exact ⟨⟨.hand _ _, .hand (unused_of_fresh hfresh) rfl rfl rfl, rfl, rfl⟩, rfl, rfl⟩
  · cases h
    obtain ⟨hminted, hlog, hstatic, hcalls⟩ := deleteSynthetic_control s jobName
    exact ⟨⟨.delete jobName, .delete rfl hminted hlog, rfl⟩, hstatic, hcalls⟩
  · cases h
    exact ⟨⟨.register _, .register rfl rfl rfl, rfl⟩, rfl, rfl⟩
  · cases h
    exact ⟨⟨.marks, .marks RunDb.sameJobs_stampReady rfl rfl, trivial⟩, rfl, rfl⟩
  · cases h

/-- The statement of a call. -/
theorem performs_callNext {next : Option (PipelineCall κ)}
    (h : s.callNext d call answer = some (t, next)) : s.Performs d t call answer := by
  cases call with
  | ready c jobName wave point =>
    obtain ⟨⟨u, next'⟩, hnext, heq⟩ := Option.map_eq_some_iff.1 h
    have hu : u = t := by
      cases next' <;> exact congrArg Prod.fst heq
    exact hu ▸ performs_readyNext hnext
  | wave c point => exact performs_waveNext h
  | init c point =>
    obtain ⟨⟨u, next'⟩, hnext, heq⟩ := Option.map_eq_some_iff.1 h
    have hu : u = t := congrArg Prod.fst heq
    exact hu ▸ performs_initNext hnext

/-- The effect of a step. -/
theorem effect_step (h : s.step d c a = some t) :
    ∃ e, s.Executes d t e ∧ s.Issues a e := by
  unfold step at h
  split at h
  case h_5 | h_6 | h_7 =>
    cases h
    exact ⟨.marks, executes_quiet rfl rfl rfl, trivial⟩
  · exact effect_staticNext h
  · obtain ⟨hreportable, heq⟩ := Option.ite_none_right_eq_some.1 h
    cases heq
    exact ⟨.status _ _ _, .status hreportable rfl rfl rfl, trivial⟩
  · cases h
  · next action hnot =>
    obtain ⟨needs, hneeds, rfl⟩ := Option.map_eq_some_iff.1 h
    exact ⟨.marks, .marks (NeedsState.sameJobs_step hnot hneeds) rfl rfl, trivial⟩
  · next k answer =>
    obtain ⟨call, hcall, h⟩ := Option.bind_eq_some_iff.1 h
    obtain ⟨⟨u, rest⟩, hnext, heq⟩ := Option.bind_eq_some_iff.1 h
    cases heq
    obtain ⟨e, he, hissues⟩ := (performs_callNext hnext).effect
    exact ⟨e, he.congr rfl rfl rfl, call, hcall, hissues⟩

/-- How a call goes on whose statement is executed. -/
inductive Continues (d : DispatchRun) (s t : DispatchState κ) (answer : DispatchAnswer) :
    PipelineCall κ → PipelineCall κ → Prop
  | ready {c : κ} {jobName : JsString} {wave : Option WaveRelease} {point point' : ReadyPoint}
    (hready : s.readyNext d c jobName point answer = some (t, some point')) :
    Continues d s t answer (.ready c jobName wave point) (.ready c jobName wave point')
  /-- The callback of a release is over. -/
  | released {c : κ} {jobName : JsString} {release : WaveRelease} {point : ReadyPoint} :
    Continues d s t answer (.ready c jobName (some release) point) (.wave c (.restamp release))
  | wave {c : κ} {point : WavePoint} {next : PipelineCall κ}
    (hwave : s.waveNext d c point answer = some (t, some next)) :
      Continues d s t answer (.wave c point) next
  | init {c : κ} {point point' : InitPoint}
    (hinit : s.initNext d c point answer = some (t, some point')) :
    Continues d s t answer (.init c point) (.init c point')

theorem continues_of_callNext {call next : PipelineCall κ}
    (h : s.callNext d call answer = some (t, some next)) : Continues d s t answer call next := by
  cases call with
  | ready c jobName wave point =>
    obtain ⟨⟨u, point'⟩, hready, heq⟩ := Option.map_eq_some_iff.1 h
    cases point' with
    | some point' =>
      cases heq
      exact .ready hready
    | none =>
      obtain ⟨-, hwave⟩ := Prod.mk.inj heq
      obtain ⟨release, rfl, rfl⟩ := Option.map_eq_some_iff.1 hwave
      exact .released
  | wave c point => exact .wave h
  | init c point =>
    obtain ⟨⟨u, point'⟩, hinit, heq⟩ := Option.map_eq_some_iff.1 h
    obtain ⟨rfl, hpoint⟩ := Prod.mk.inj heq
    obtain ⟨point', rfl, rfl⟩ := Option.map_eq_some_iff.1 hpoint
    exact .init hinit

/-- The calls after a step: those there were, calls that begin, and the rest of the call whose
statement is executed. -/
theorem mem_calls_step (h : s.step d c a = some t) (hcall : call ∈ t.calls) : call ∈ s.calls ∨
    call.Begins ∨
      ∃ k answer call₀ u, a = .next k answer ∧ s.calls[k]? = some call₀ ∧
        s.callNext d call₀ answer = some (u, some call) ∧ t.db = u.db ∧ t.minted = u.minted ∧
        t.log = u.log := by
  unfold step at h
  split at h
  case h_5 | h_6 =>
    cases h
    rcases mem_append.1 hcall with hold | hnew
    · exact .inl hold
    · cases mem_singleton.1 hnew
      exact .inr (.inl trivial)
  · exact (mem_calls_staticNext h hcall).imp_right .inl
  · obtain ⟨hreportable, heq⟩ := Option.ite_none_right_eq_some.1 h
    cases heq
    exact .inl hcall
  · cases h
  · obtain ⟨needs, -, rfl⟩ := Option.map_eq_some_iff.1 h
    exact .inl hcall
  · cases h
    exact .inl hcall
  · next k answer =>
    obtain ⟨call₀, hcall₀, h⟩ := Option.bind_eq_some_iff.1 h
    obtain ⟨⟨u, rest⟩, hnext, heq⟩ := Option.bind_eq_some_iff.1 h
    cases heq
    have hold := (performs_callNext hnext).calls
    rcases mem_append.1 hcall with hmem | hdrop
    · rcases mem_append.1 hmem with htake | hrest
      · exact .inl (hold ▸ mem_of_mem_take htake)
      · cases Option.mem_toList.1 hrest
        exact .inr (.inr ⟨k, answer, call₀, u, rfl, hcall₀, hnext, rfl, rfl, rfl⟩)
    · exact .inl (hold ▸ mem_of_mem_drop hdrop)

/-- Only the dispatch of the workflow goes on with it. -/
theorem static_step (h : s.step d c a = some t) :
    t.static = s.static ∨ ∃ answer, a = .static answer ∧ s.staticNext d c s.static answer = some t := by
  unfold step at h
  split at h
  case h_5 | h_6 | h_7 =>
    cases h
    exact .inl rfl
  · exact .inr ⟨_, rfl, h⟩
  · obtain ⟨hreportable, heq⟩ := Option.ite_none_right_eq_some.1 h
    cases heq
    exact .inl rfl
  · cases h
  · obtain ⟨needs, -, rfl⟩ := Option.map_eq_some_iff.1 h
    exact .inl rfl
  · obtain ⟨call₀, hcall₀, h⟩ := Option.bind_eq_some_iff.1 h
    obtain ⟨⟨u, rest⟩, hnext, heq⟩ := Option.bind_eq_some_iff.1 h
    cases heq
    exact .inl (performs_callNext hnext).static

end

end DispatchState

end Kici
