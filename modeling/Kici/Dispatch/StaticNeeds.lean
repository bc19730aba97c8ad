import Kici.Dispatch.Rows
import Kici.Fanout.Names

/-!
# Jobs wait for the jobs they need

Whether a job is handed to the dispatcher only when the jobs it needs are over, with statuses
after which it may run (`NeedsOver`). The dispatch of a workflow hands over jobs that need no
other one, and `dispatchReadyJob` looks at the rows of the others first. A job that waits for an
init job is handed over when that one is over, whatever it needs, and the edges are inserted only
after the first jobs are dispatched, so that an earlier look at them finds none: in runs without
either (`KeepsNeeds`), jobs wait (`needsOver_of_handsOver`).
-/

namespace Kici

open List Option

variable {mat : MaterializedJob}

/-- A job that needs no other one has no edges. -/
theorem edgeRowsForRun_of_isRootJob {expansionMap : JsObject (List JsString)}
    (h : isRootJob mat.lockJob) : edgeRowsForRun [mat] expansionMap = [] := by
  have hgroups : ∀ need ∈ mat.lockJob.needs, ∃ group runOn, need = .group group runOn := by
    intro need hneed
    have hany := (Bool.and_eq_true_iff.1 h).1
    rw [Bool.not_eq_true', List.any_eq_false] at hany
    cases need with
    | name | entry => exact absurd rfl (hany _ hneed)
    | group group runOn => exact ⟨group, runOn, rfl⟩
  have hneeds : concreteNeeds expansionMap mat.lockJob = [] := by
    rw [concreteNeeds, flatMap_eq_nil_iff]
    intro need hneed
    obtain ⟨group, runOn, rfl⟩ := hgroups need hneed
    rfl
  rw [edgeRowsForRun, flatMap_cons, hneeds]
  rfl

theorem jobName_of_mem_edgeRowsForRun {expansionMap : JsObject (List JsString)}
    {edge : JobNeed} (h : edge ∈ edgeRowsForRun [mat] expansionMap) :
    edge.jobName = mat.expandedName := by
  obtain ⟨job, hjob, hmap⟩ := mem_flatMap.1 h
  obtain ⟨need, -, rfl⟩ := List.mem_map.1 hmap
  rw [mem_singleton.1 hjob]

namespace DispatchState

variable {κ : Type} {s t : DispatchState κ} {d : DispatchRun} {mat : MaterializedJob}


/-- The job that a step hands to the dispatcher, or routes. -/
def handsOver (s : DispatchState κ) : DispatchAction κ → Option MaterializedJob
  | .static _ =>
    match s.static with
    | .tasks (.hand mat _ :: _) _ => some mat
    | _ => none
  | .next k _ =>
    match s.calls[k]? with
    | some (.ready _ _ _ (.dispatch pending)) => some pending.mat
    | some (.init _ (.tasks (.hand mat _ :: _) _)) => some mat
    | _ => none
  | _ => none

/-- The jobs that a job needs are over, with statuses after which it may run. -/
def NeedsOver (s : DispatchState κ) (d : DispatchRun) (mat : MaterializedJob) : Prop :=
  ∀ edge ∈ edgeRowsForRun [mat] d.run.expansionMap, ∃ jobId status,
    .finished jobId edge.upstreamName status ∈ s.log ∧ edge.admits status = true

theorem NeedsOver.mono (h : s.NeedsOver d mat) (hlog : s.log <+: t.log) : t.NeedsOver d mat := by
  intro edge hedge
  obtain ⟨jobId, status, hmem, hadmits⟩ := h edge hedge
  exact ⟨jobId, status, hlog.subset hmem, hadmits⟩

end DispatchState

/-- The steps that keep a job waiting: an init job does not lead to its dispatch, and when the
edges of the job are read, they have been inserted. -/
structure KeepsNeeds {κ : Type} (d : DispatchRun) (mat : MaterializedJob) (s : DispatchState κ)
    (a : DispatchAction κ) : Prop where
  init : ∀ k answer c row todo result, a = .next k answer →
    s.calls[k]? ≠ some (.init c (.tasks (.hand mat row :: todo) result))
  edges : ∀ k answer c wave, a = .next k answer →
    s.calls[k]? = some (.ready c mat.expandedName wave .needsEdges) →
      ∀ edge ∈ edgeRowsForRun [mat] d.run.expansionMap, edge ∈ s.db.executionJobNeeds

namespace DispatchState

variable {κ : Type} {s t : DispatchState κ} {d : DispatchRun} {c : κ} {mat : MaterializedJob}
  {jobName : JsString} {answer : DispatchAnswer} {a : DispatchAction κ}

/-- What a call that is to dispatch the job knows of what the job needs. -/
def NeedsKnown (s : DispatchState κ) (d : DispatchRun) (mat : MaterializedJob) : PipelineCall κ → Prop
  | .ready _ jobName _ (.needsStatuses edges) => jobName = mat.expandedName →
    ∀ edge ∈ edgeRowsForRun [mat] d.run.expansionMap, edge ∈ edges
  | .ready _ jobName _ .contextGate | .ready _ jobName _ .consume | .ready _ jobName _ (.dispatch _) =>
    jobName = mat.expandedName → s.NeedsOver d mat
  | _ => True

/-- What the parties know of what a job needs. -/
structure NeedsSound (d : DispatchRun) (mat : MaterializedJob) (s : DispatchState κ) : Prop where
  sound : s.Sound
  roots : ∀ mat' row, .hand mat' row ∈ s.static.todo → isRootJob mat'.lockJob = true
  calls : ∀ call ∈ s.calls, s.NeedsKnown d mat call

theorem NeedsKnown.mono {call : PipelineCall κ} (h : s.NeedsKnown d mat call) (hlog : s.log <+: t.log) :
    t.NeedsKnown d mat call := by
  unfold NeedsKnown at *
  split at h
  case h_2 | h_3 | h_4 => exact fun hname => (h hname).mono hlog
  · exact h
  · trivial

theorem needsKnown_begins {call : PipelineCall κ} (h : call.Begins) : s.NeedsKnown d mat call := by
  unfold PipelineCall.Begins at h
  split at h
  · trivial
  · trivial
  · trivial
  · exact h.elim

section
variable [DecidableEq κ]

/-- A call learns that the jobs are over from their rows. -/
theorem needsKnown_readyNext {point next : ReadyPoint} {wave : Option WaveRelease} (h : s.RowsSound)
    (hknown : s.NeedsKnown d mat (.ready c jobName wave point))
    (hedges : point = .needsEdges → jobName = mat.expandedName →
      ∀ edge ∈ edgeRowsForRun [mat] d.run.expansionMap, edge ∈ s.db.executionJobNeeds)
    (hnext : s.readyNext d c jobName point answer = some (t, some next)) :
    t.NeedsKnown d mat (.ready c jobName wave next) := by
  unfold readyNext at hnext
  split at hnext
  case h_1 | h_8 | h_11 | h_15 | h_16 => cases hnext
  case h_2 | h_5 | h_12 | h_13 | h_14 =>
    cases hnext
    trivial
  · cases hnext
    exact fun hname edge hedge => RunDb.mem_edgesOf.2
      ⟨hedges rfl hname edge hedge, (jobName_of_mem_edgeRowsForRun hedge).trans hname.symm⟩
  · split at hnext
    · cases hnext
    · next hcheck =>
      cases hnext
      intro hname edge hedge
      obtain ⟨row, hrow, hupstream, hterminal, hadmits⟩ :=
        RunDb.met_of_checkEdges hcheck edge (hknown hname edge hedge)
      obtain ⟨jobId, hfinished⟩ := h.finished row hrow hterminal
      exact ⟨jobId, row.status, hupstream ▸ hfinished, hadmits⟩
    · obtain ⟨-, hid⟩ := Prod.mk.inj (some.inj hnext)
      obtain ⟨jobId, -, rfl⟩ := map_eq_some_iff.1 hid
      trivial
  · cases (ite_none_right_eq_some.1 hnext).2
  · cases hnext
    exact hknown
  · split at hnext
    · cases hnext
    · next hconsume =>
      split at hnext
      · cases hnext
      · cases hnext
        have hperforms : s.Performs d (s.consume c jobName).1 (.ready c jobName wave .consume) .ok :=
          performs_consume
        obtain ⟨e, he, -⟩ := hperforms.effect
        rw [hconsume] at he
        exact fun hname => (hknown hname).mono he.log_mono
  · cases (ite_none_right_eq_some.1 hnext).2
    trivial

/-- Under the condition every step keeps what the parties know. -/
theorem NeedsSound.step (h : NeedsSound d mat s) (hok : KeepsNeeds d mat s a)
    (hstep : s.step d c a = some t) : NeedsSound d mat t := by
  obtain ⟨e, he, -⟩ := effect_step hstep
  refine ⟨h.sound.step hstep, ?_, fun call hcall => ?_⟩
  · rcases static_step hstep with hsame | ⟨answer, -, hnext⟩
    · exact hsame ▸ h.roots
    · intro mat' row hmem
      rcases mem_todo_staticNext hnext hmem with hold | ⟨-, data, peers, hnew⟩
      · exact h.roots mat' row hold
      · exact (of_hand_mem_staticTasks hnew).2
  rcases mem_calls_step hstep hcall with hold | hbegins |
    ⟨k, answer, call₀, u, rfl, hcall₀, hnext, -, -, hlog⟩
  · exact (h.calls call hold).mono he.log_mono
  · exact needsKnown_begins hbegins
  have hknown := h.calls call₀ (mem_of_getElem? hcall₀)
  refine NeedsKnown.mono (s := u) ?_ (hlog ▸ prefix_rfl)
  cases continues_of_callNext hnext with
  | @ready c jobName wave point point' hready =>
    refine needsKnown_readyNext h.sound.toRowsSound hknown ?_ hready
    rintro rfl rfl
    exact hok.edges k answer c wave rfl hcall₀
  | released => trivial
  | wave hwave => rcases next_waveNext hwave with ⟨point', rfl⟩ | ⟨release, -, rfl⟩ <;> trivial
  | init => trivial

end

theorem needsSound_init :
    NeedsSound d mat ({ needs := { db := ⟨.empty _, .empty _⟩ } } : DispatchState κ) where
  sound := sound_init
  roots _ _ h := absurd h not_mem_nil
  calls _ h := absurd h not_mem_nil

theorem NeedsSound.needsOver (h : NeedsSound d mat s) (hok : KeepsNeeds d mat s a)
    (hhands : s.handsOver a = some mat) : s.NeedsOver d mat := by
  unfold handsOver at hhands
  split at hhands
  · split at hhands
    · next hphase =>
      cases hhands
      have hroot := h.roots mat _ (by rw [hphase]; exact mem_cons_self)
      intro edge hedge
      rw [edgeRowsForRun_of_isRootJob hroot] at hedge
      exact absurd hedge not_mem_nil
    · cases hhands
  · split at hhands
    · next hcall =>
      cases hhands
      have hmem := mem_of_getElem? hcall
      exact h.calls _ hmem (h.sound.calls _ hmem).symm
    · next hcall =>
      cases hhands
      exact absurd hcall (hok.init _ _ _ _ _ _ rfl)
    · cases hhands
  · cases hhands

end DispatchState

section
variable {κ : Type} [DecidableEq κ] {d : DispatchRun} {c : κ} {mat : MaterializedJob}
  {s : DispatchState κ} {a : DispatchAction κ}

theorem needsSound_of_reachable (h : (dispatchSystem d c).Reachable (KeepsNeeds d mat) s) :
    s.NeedsSound d mat :=
  h.invariant (fun _ hs => hs ▸ DispatchState.needsSound_init) fun _ _ _ hs hok hstep =>
    hs.step hok hstep

/-- In every run that keeps a job waiting, it is handed over only when the jobs it needs are over,
with statuses after which it may run. -/
theorem needsOver_of_handsOver (h : (dispatchSystem d c).Reachable (KeepsNeeds d mat) s)
    (hok : KeepsNeeds d mat s a) (hhands : s.handsOver a = some mat) : s.NeedsOver d mat :=
  (needsSound_of_reachable h).needsOver hok hhands

end

/-! ## Running the dispatch -/

/-- A test of the steps that keep a job waiting. -/
def keepsNeeds (d : DispatchRun) (mat : MaterializedJob) (s : DispatchState Unit) :
    DispatchAction Unit → Bool
  | .next k _ =>
    match s.calls[k]? with
    | some (.init _ (.tasks (.hand _ _ :: _) _)) => false
    | some (.ready _ jobName _ .needsEdges) => jobName ≠ mat.expandedName ||
      (edgeRowsForRun [mat] d.run.expansionMap).all fun edge => edge ∈ s.db.executionJobNeeds.rows
    | _ => true
  | _ => true

theorem keepsNeeds_of_test {d : DispatchRun} (s : DispatchState Unit)
    (a : DispatchAction Unit) (h : keepsNeeds d mat s a) : KeepsNeeds d mat s a where
  init k answer c row todo result ha hcall := by
    subst ha
    simp [keepsNeeds, hcall] at h
  edges k answer c wave ha hcall := by
    subst ha
    have hall : ∀ edge ∈ edgeRowsForRun [mat] d.run.expansionMap,
      edge ∈ s.db.executionJobNeeds.rows := by
      simpa [keepsNeeds, hcall] using h
    exact hall

/-- Two jobs, the second of which needs the first. -/
def needyJobs (dynamicEnv : Bool) : List LockJob :=
  [{ name := "build" }, { name := "deploy", needs := [.name "build"], dynamicEnv }]

def needyRun (dynamicEnv : Bool) : DispatchRun where
  rt := lowercaseFanoutRuntime
  staticJobs := needyJobs dynamicEnv
  run := lowercaseFanoutRuntime.materializeStaticJobsSafe (fun _ => .ok []) 100 (needyJobs dynamicEnv)

def needyMat (dynamicEnv : Bool) : MaterializedJob where
  lockJob := { name := "deploy", needs := [.name "build"], dynamicEnv }
  baseName := "deploy"
  expandedName := "deploy"

/-- The start of a run. -/
def dispatchStart : DispatchState Unit := { needs := { db := ⟨.empty _, .empty _⟩ } }

/-- The second job is dispatched when the first one is over. -/
def waitingRun : List (DispatchAction Unit) := [
  .static .no, .static (.accepted "b"), .static (.id "needs-pending-deploy-1"), .static .ok,
  .static .ok, .static .ok, .static .ok, .static .ok, .static .ok, .static .ok,
  .onJobStatus "b" "build" .success, .dispatchReadyJob () "deploy", .next 0 .no, .next 0 .ok,
  .next 0 .ok, .next 0 .yes, .next 0 .ok]

theorem handsOver_waitingRun : (((dispatchSystem (needyRun false) ()).run
    (keepsNeeds (needyRun false) (needyMat false)) dispatchStart waitingRun).bind
      fun s => s.handsOver (.next 0 (.accepted "d"))) = some (needyMat false) := by rfl

/-- A run in which the job is handed over after the job it needs. -/
theorem needsOver_of_handsOver_deploy : ∃ s : DispatchState Unit,
    s.handsOver (.next 0 (.accepted "d")) = some (needyMat false) ∧
      s.NeedsOver (needyRun false) (needyMat false) := by
  obtain ⟨s, hs, hhands⟩ := bind_eq_some_iff.1 handsOver_waitingRun
  have hpath := System.path_of_run keepsNeeds_of_test hs
  refine ⟨s, hhands, needsOver_of_handsOver ⟨dispatchStart, rfl, hpath⟩
    (keepsNeeds_of_test s _ ?_) hhands⟩
  cases hs
  rfl

/-- The second job gets an init job, and is handed over when that is over. -/
def flowBackRun : List (DispatchAction Unit) := [
  .static .no, .static (.accepted "b"), .static .ok, .static .ok, .static .ok, .static .ok, .static .ok,
  .static .ok, .next 0 (.init {} {} fun _ => {})]

/-- Whether a job is over. -/
def DispatchEvent.isFinished : DispatchEvent → Bool
  | .dispatched _ _ => false
  | .finished _ _ _ => true

theorem handsOver_flowBackRun : (((dispatchSystem (needyRun true) ()).run (fun _ _ => true) dispatchStart
    flowBackRun).map fun s => (s.handsOver (.next 0 (.accepted "d")),
      (s.step (needyRun true) () (.next 0 (.accepted "d"))).isSome, s.log.any (·.isFinished))) =
        some (some (needyMat true), true, false) := by rfl

/-- A run in which a job is handed over while the job it needs is running. -/
theorem exists_handsOver_before_needs : ∃ s t : DispatchState Unit,
    (dispatchSystem (needyRun true) ()).Reachable System.anyStep s ∧
      (dispatchSystem (needyRun true) ()).step s (.next 0 (.accepted "d")) = some t ∧
      s.handsOver (.next 0 (.accepted "d")) = some (needyMat true) ∧
      ¬s.NeedsOver (needyRun true) (needyMat true) := by
  obtain ⟨s, hs, heq⟩ := map_eq_some_iff.1 handsOver_flowBackRun
  obtain ⟨hhands, heq⟩ := Prod.mk.inj heq
  obtain ⟨henabled, hnone⟩ := Prod.mk.inj heq
  obtain ⟨t, ht⟩ := isSome_iff_exists.1 henabled
  refine ⟨s, t, ⟨dispatchStart, rfl, System.path_of_run System.anyStep_of_true hs⟩, ht,
    hhands, fun h => ?_⟩
  obtain ⟨jobId, status, hfinished, -⟩ :=
    h ⟨"deploy", "build", runOnJson SUCCESS_ONLY_RUN_ON⟩ (by decide)
  exact List.any_eq_false.1 hnone _ hfinished rfl

end Kici
