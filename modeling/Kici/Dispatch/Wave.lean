import Kici.Dispatch.WaveRows
import Kici.Fanout.Names
import Kici.Foundation.Lists
import Mathlib.Data.List.Dedup

/-!
# Rolling waves

Whether at most `m` children of a fan-out run at a time, if no more may. The dispatch of a
workflow hands over `m` children and holds the others, and when a child is over, the first of those
that wait is released, if less than `m` are under way by their rows.

A place is taken by a child that is running, is about to be handed over, or is being released
(`HoldsPlace`). Other ways to dispatch a child do not look at the places, and a child that is being
released is not counted while its placeholder is replaced: in runs without either (`KeepsWave`), at
most `m` places are taken (`length_inFlight_le`).
-/

namespace Kici

open List Option PipelineCall

/-! ## The decision -/

/-- `localeCompare` orders strings, though it may take different ones for equal. -/
structure FanoutRuntime.LocaleOrder (rt : FanoutRuntime) : Prop where
  total : ∀ a b, rt.localeLe a b = true ∨ rt.localeLe b a = true
  trans : ∀ a b c, rt.localeLe a b = true → rt.localeLe b c = true → rt.localeLe a c = true

namespace FanoutRuntime

variable {rt : FanoutRuntime} {baseName : JsString} {status : ExecutionJobStatus}
  {children : List ExecutionJob} {release : WaveRelease}

/-- What comes first has the least key. -/
theorem LocaleOrder.le_of_sortByLocale {α : Type} {key : α → JsString} {l xs : List α} {x : α}
    (h : rt.LocaleOrder) (hsort : rt.sortByLocale key l = x :: xs) :
    x ∈ l ∧ ∀ y ∈ l, rt.localeLe (key x) (key y) := by
  have htotal : Std.Total fun a b => rt.localeLe (key a) (key b) := ⟨fun a b => h.total _ _⟩
  have htrans : IsTrans α fun a b => rt.localeLe (key a) (key b) := ⟨fun a b c => h.trans _ _ _⟩
  have hmem : ∀ y, y ∈ l ↔ y ∈ x :: xs := fun y => by
    rw [← hsort]
    exact (mem_insertionSort _).symm
  have hpairwise := pairwise_insertionSort (fun a b => rt.localeLe (key a) (key b)) l
  rw [show l.insertionSort _ = x :: xs from hsort] at hpairwise
  refine ⟨(hmem x).2 mem_cons_self, fun y hy => ?_⟩
  rcases mem_cons.1 ((hmem y).1 hy) with rfl | hy
  · exact (h.total _ _).elim id id
  · exact (pairwise_cons.1 hpairwise).1 y hy

/-- What is released is a child that waits and comes first, and there is a place for it. -/
theorem LocaleOrder.of_evaluateWave (h : rt.LocaleOrder)
    (heval : rt.evaluateWave baseName status children = .release release) :
    release.baseJobName = baseName ∧
      (∃ next ∈ children, next.waveGated ∧ next.jobName = release.jobName ∧
        ∀ row ∈ children, row.waveGated → rt.localeLe (waveLabel next) (waveLabel row)) ∧
      (∃ row ∈ children, row.waveMaxParallel = some release.maxParallel) ∧
      (children.filter takesPlace).length < release.maxParallel := by
  rw [evaluateWave] at heval
  split at heval
  · cases heval
  · next maxParallel failFast hpolicy =>
    obtain ⟨row, hfind, hrow⟩ := bind_eq_some_iff.1 hpolicy
    obtain ⟨k, hk, heq⟩ := map_eq_some_iff.1 hrow
    obtain ⟨rfl, -⟩ := Prod.mk.inj heq
    dsimp only at heval
    split at heval
    · split at heval <;> cases heval
    · split at heval
      · cases heval
      · next next rest hheld =>
        split at heval
        · cases heval
        · next hroom =>
          cases heval
          obtain ⟨hnext, hfirst⟩ := h.le_of_sortByLocale hheld
          obtain ⟨hnext, hgated⟩ := mem_filter.1 hnext
          refine ⟨rfl, ⟨next, hnext, hgated, rfl, fun row hrow hg => ?_⟩,
            ⟨row, mem_of_find?_eq_some hfind, hk⟩, Nat.lt_of_not_le hroom⟩
          exact hfirst row (mem_filter.2 ⟨hrow, hg⟩)

end FanoutRuntime

/-- Whether the jobs are registered that the dispatch of the workflow handed over or stored. -/
def StaticPhase.registered : StaticPhase → Bool
  | .edges _ | .catchUp _ | .deferred | .done => true
  | _ => false

/-- The call is to release a child, or releases it. -/
def PipelineCall.Releases {κ : Type} (base name : JsString) : PipelineCall κ → Prop
  | .wave _ (.release release) => release.baseJobName = base ∧ release.jobName = name
  | .ready _ jobName (some release) _ => release.baseJobName = base ∧ jobName = name
  | _ => False

/-- The call is not one to release a child. -/
def PipelineCall.Quiet {κ : Type} : PipelineCall κ → Prop
  | .wave _ (.release _) | .ready _ _ (some _) _ | .wave _ (.restamp _) => False
  | _ => True

/-- The task of an init job has nothing to do with the fan-out. -/
def InitPoint.Outside (d : DispatchRun) (base : JsString) : InitPoint → Prop
  | .tasks (.hand mat _ :: _) _ => mat.baseName ≠ base
  | .register row _ _ => row.jobName ∉ d.childrenOf base ∧ row.baseJobName ≠ some base
  | _ => True

namespace DispatchState

variable {κ : Type} (s : DispatchState κ) (d : DispatchRun) (base : JsString) (m : ℕ)

/-- The child takes one of the places of the fan-out. -/
def HoldsPlace (name : JsString) : Prop :=
  (∃ jobId mat, .dispatched jobId mat ∈ s.log ∧ mat.baseName = base ∧ mat.expandedName = name ∧
    s.isOver jobId = false) ∨
  ((∃ call ∈ s.calls, call.Releases base name) ∧ ¬s.Started name) ∨
  ∃ mat row, .hand mat row ∈ s.static.todo ∧ mat.baseName = base ∧ mat.expandedName = name ∧
    name ∉ (d.rt.computeWavePlan d.run.materializedJobs).held

/-- A row of the child is in the fan-out, and comes first of those that wait, if it does. -/
def First (name : JsString) : Prop :=
  ∃ row ∈ s.db.executionJobs, row.jobName = name ∧ row.baseJobName = some base ∧
    (row.waveGated = true → ∀ r ∈ s.db.executionJobs, r.baseJobName = some base → r.waveGated = true →
      d.rt.localeLe (waveLabel row) (waveLabel r) = true)

/-- A child that is to be released came first, and is in the fan-out as long as it did not start. -/
def Picked (release : WaveRelease) : Prop :=
  d.FitsRelease base m release ∧ (release.baseJobName = base → s.static.registered = true ∧
    (¬s.Started release.jobName → s.First d base release.jobName))

/-- A child that is released does not wait. -/
def Released (release : WaveRelease) : Prop :=
  s.Picked d base m release ∧ (release.baseJobName = base → s.Ungated release.jobName)

/-- What a call knows of the child it releases. -/
def WaveKnown : PipelineCall κ → Prop
  | .wave _ (.release release) => s.Picked d base m release
  | .ready _ jobName (some release) _ => jobName = release.jobName ∧ s.Released d base m release
  | .wave _ (.restamp release) => s.Released d base m release
  | _ => True

end DispatchState

/-- The steps that keep to the places of a fan-out. -/
structure KeepsWave {κ : Type} (d : DispatchRun) (base : JsString) (s : DispatchState κ)
    (a : DispatchAction κ) : Prop where
  /-- The dispatch of the workflow hands over no child that the plan holds. -/
  static : ∀ jobId mat row todo jobs, a = .static (.accepted jobId) →
    s.static = .tasks (.hand mat row :: todo) jobs → mat.baseName = base →
      mat.expandedName ∉ (d.rt.computeWavePlan d.run.materializedJobs).held
  /-- No init job leads to the dispatch of a child, or to a row of one. -/
  init : ∀ k answer c point, a = .next k answer → s.calls[k]? = some (.init c point) →
    point.Outside d base
  /-- A child that is dispatched is released, and did not start before. -/
  ready : ∀ k jobId c jobName wave pending, a = .next k (.accepted jobId) →
    s.calls[k]? = some (.ready c jobName wave (.dispatch pending)) → pending.mat.baseName = base →
      (∃ release, wave = some release ∧ release.baseJobName = base) ∧ ¬s.Started jobName
  /-- When it is decided about the children that wait, the others are registered, those that run
  are counted, and those that wait are told apart. -/
  wave : ∀ k answer c status, a = .next k answer → s.calls[k]? = some (.wave c (.evaluate base status)) →
    (∃ row ∈ s.db.childrenOf base, row.waveGated = true) → s.static.registered = true ∧
      (∀ name ∈ s.inFlight base, ∃ row ∈ s.db.childrenOf base, row.jobName = name ∧
        takesPlace row = true) ∧
      ∀ row ∈ s.db.childrenOf base, ∀ r ∈ s.db.childrenOf base, row.waveGated = true →
        r.waveGated = true →
        d.rt.localeLe (waveLabel row) (waveLabel r) = true →
          d.rt.localeLe (waveLabel r) (waveLabel row) = true → row.jobName = r.jobName

namespace DispatchState

variable {κ : Type} {s t : DispatchState κ} {d : DispatchRun} {base name : JsString} {m : ℕ} {c : κ}
  {release : WaveRelease} {answer : DispatchAnswer} {a : DispatchAction κ} {e : Effect}
    {call : PipelineCall κ}
  {jobId : String}

/-- What holds of the fan-out in every run that keeps to its places. -/
structure WaveSound (d : DispatchRun) (base : JsString) (m : ℕ) (s : DispatchState κ) : Prop where
  sound : s.Sound
  todo : ∀ task ∈ s.static.todo, d.Fits base m task.row
  queued : ∀ row ∈ s.static.rows, d.Fits base m row
  rows : ∀ row ∈ s.db.executionJobs, d.Fits base m row
  calls : ∀ call ∈ s.calls, s.WaveKnown d base m call
  places : AtMost m (s.HoldsPlace d base)
  start : s.static = .start → ∀ name, ¬s.HoldsPlace d base name

/-! ### Registration -/

theorem registered_staticNext {phase : StaticPhase} (h : s.staticNext d c phase answer = some t)
    (hregistered : phase.registered) : t.static.registered := by
  unfold staticNext at h
  split at h
  case h_11 | h_12 | h_13 | h_14 | h_15 =>
    cases h
    rfl
  case h_16 => cases h
  all_goals cases hregistered

theorem fits_staticNext {phase : StaticPhase} (hnames : d.names.Nodup)
    (hparallel : ∀ mat ∈ d.run.materializedJobs, mat.baseName = base → mat.lockJob.maxParallel = some m)
    (h : s.staticNext d c phase answer = some t) (htodo : ∀ task ∈ phase.todo, d.Fits base m task.row)
    (hqueued : ∀ row ∈ phase.rows, d.Fits base m row) :
    (∀ task ∈ t.static.todo, d.Fits base m task.row) ∧ ∀ row ∈ t.static.rows, d.Fits base m row := by
  have hnone : ∀ {α : Type} {P : α → Prop}, ∀ x ∈ ([] : List α), P x := fun x hx => absurd hx not_mem_nil
  -- The job at the head of what is to be done is registered later on.
  have hnew : ∀ {row : ExecutionJob} {jobs : List ExecutionJob} {jobId : String}, d.Fits base m row →
      (∀ row ∈ jobs, d.Fits base m row) → ∀ r ∈ jobs ++ [{ row with jobId }], d.Fits base m r :=
    fun hrow hjobs => forall_mem_append.2 ⟨hjobs, forall_mem_singleton.2 hrow⟩
  unfold staticNext at h
  split at h
  case h_1 | h_2 =>
    cases h
    exact ⟨DispatchRun.fits_staticTasks hnames hparallel, hnone⟩
  case h_3 | h_4 | h_5 | h_6 =>
    cases (ite_none_right_eq_some.1 h).2
    obtain ⟨hrow, htail⟩ := forall_mem_cons.1 htodo
    exact ⟨htail, hnew hrow hqueued⟩
  case h_7 =>
    cases h
    exact ⟨(forall_mem_cons.1 htodo).2, hqueued⟩
  case h_9 =>
    cases h
    exact ⟨hnone, hqueued⟩
  case h_10 =>
    cases h
    exact ⟨hnone, (forall_mem_cons.1 hqueued).2⟩
  case h_16 => cases h
  all_goals
    cases h
    exact ⟨hnone, hnone⟩

/-! ### Steps -/

/-- The effect of a step that keeps to the places fits the fan-out. -/
theorem WaveSound.fitsWave (h : WaveSound d base m s) (hok : KeepsWave d base s a)
    (hissues : s.Issues a e) : s.FitsWave d base m (s.static.registered) e := by
  cases a with
  | static answer =>
    cases e with
    | register row =>
      obtain ⟨todo, jobs, hstatic⟩ := hissues
      refine ⟨h.sound.registers (a := .static answer) ⟨todo, jobs, hstatic⟩, h.queued row ?_,
        fun hregistered => ?_⟩
      · rw [hstatic]
        exact mem_cons_self
      · rw [hstatic] at hregistered
        cases hregistered
    | restamp | delete => exact hissues.elim
    | _ => trivial
  | next k answer =>
    obtain ⟨call, hcall, hissues⟩ := hissues
    have hmem := mem_of_getElem? hcall
    have hregisters : ∀ row, e = .register row → s.Registers row := by
      rintro row rfl
      exact h.sound.registers (a := .next k answer) ⟨call, hcall, hissues⟩
    unfold PipelineCall.Issues at hissues
    split at hissues
    case h_1 | h_2 | h_3 | h_4 | h_7 | h_8 | h_10 => trivial
    · obtain ⟨-, mat, hdispatched, hname⟩ := h.sound.calls _ hmem
      exact hissues ▸ .inl ⟨_, mat, hdispatched, hname⟩
    · have hplain := (hissues ▸ DispatchRun.plain_pendingRow _ _ : d.Plain base _)
      exact ⟨hregisters _ rfl, hplain.fits, fun _ => hplain⟩
    · have hknown := h.calls _ hmem
      exact hissues ▸ ⟨hknown.1.1, hknown.2⟩
    · obtain ⟨hname, hbase⟩ := hok.init k answer _ _ rfl hcall
      have hgated := ((h.sound.calls _ hmem).2 _ (mem_singleton_self _)).2
      have hplain : d.Plain base _ := ⟨hgated, hbase, fun hchild => absurd hchild hname⟩
      rw [← hissues] at hplain
      exact ⟨hregisters _ rfl, hplain.fits, fun _ => hplain⟩
    · exact hissues.elim
  | _ =>
    cases e with
    | marks | status => trivial
    | _ => exact hissues.elim

/-- What every step keeps of a fan-out. -/
structure WaveStep (base : JsString) (s t : DispatchState κ) : Prop where
  log : s.log <+: t.log
  registered : s.static.registered = true → t.static.registered = true
  rows : s.static.registered = true → WaveRowsKept base s t

theorem WaveStep.first (h : WaveStep base s t) (hregistered : s.static.registered)
    (hfirst : s.First d base name) (hnot : ¬t.Started name) : t.First d base name := by
  obtain ⟨r, hr, rfl, hbase, hle⟩ := hfirst
  obtain ⟨row, hrow, hkept⟩ := (h.rows hregistered).stays r hr hbase hnot
  refine ⟨row, hrow, hkept.jobName, hkept.stays hbase, fun hgated r' hr' hbase' hgated' => ?_⟩
  obtain ⟨r₀, hr₀, hkept'⟩ := (h.rows hregistered).comes r' hr' hgated'
  have hbase₀ := hkept'.joins hgated' hbase'
  rw [hkept.waveLabel hbase, hkept'.waveLabel hbase₀]
  exact hle (hkept.gated hgated) r₀ hr₀ hbase₀ (hkept'.gated hgated')

theorem WaveStep.ungated (h : WaveStep base s t) (hregistered : s.static.registered)
    (hungated : s.Ungated name) : t.Ungated name := by
  intro row hrow hname
  by_contra hgated
  have hgated := eq_true_of_ne_false hgated
  obtain ⟨r, hr, hkept⟩ := (h.rows hregistered).comes row hrow hgated
  have hfalse := hungated r hr (hkept.jobName.symm.trans hname)
  rw [hkept.gated hgated] at hfalse
  cases hfalse

theorem Picked.mono (h : s.Picked d base m release) (hstep : WaveStep base s t) :
    t.Picked d base m release := by
  refine ⟨h.1, fun hbase => ?_⟩
  obtain ⟨hregistered, hfirst⟩ := h.2 hbase
  exact ⟨hstep.registered hregistered, fun hnot =>
    hstep.first hregistered (hfirst fun hstarted => hnot (hstarted.mono hstep.log)) hnot⟩

theorem Released.mono (h : s.Released d base m release) (hstep : WaveStep base s t) :
    t.Released d base m release :=
  ⟨h.1.mono hstep, fun hbase => hstep.ungated (h.1.2 hbase).1 (h.2 hbase)⟩

theorem WaveKnown.mono (h : s.WaveKnown d base m call) (hstep : WaveStep base s t) :
    t.WaveKnown d base m call := by
  unfold WaveKnown at *
  split at h
  · exact Picked.mono h hstep
  · exact ⟨h.1, Released.mono h.2 hstep⟩
  · exact Released.mono h hstep
  · trivial

/-! ### Calls -/

theorem waveKnown_of_quiet (h : call.Quiet) : s.WaveKnown d base m call := by
  unfold WaveKnown
  split
  · exact h.elim
  · exact h.elim
  · exact h.elim
  · trivial

theorem not_releases_of_quiet (h : call.Quiet) : ¬call.Releases base name := by
  unfold Releases
  split
  · exact h.elim
  · exact h.elim
  · exact id

theorem quiet_of_begins (h : call.Begins) : call.Quiet := by
  unfold Begins at h
  split at h
  · trivial
  · trivial
  · trivial
  · exact h.elim

/-- It is decided to release a child of a job. -/
def Picks (s : DispatchState κ) (d : DispatchRun) (baseName : JsString) (a : DispatchAction κ)
    (release : WaveRelease) : Prop :=
  ∃ k c status rows, a = .next k (.rows rows) ∧
    s.calls[k]? = some (.wave c (.evaluate baseName status)) ∧
    rows.isPerm (s.db.childrenOf baseName) = true ∧
      d.rt.evaluateWave baseName status rows = .release release

/-- How the scheduler of waves goes on: it decides to release a child, it releases one, or neither. -/
theorem next_waveNext_cases {point : WavePoint} {next : PipelineCall κ}
    (h : s.waveNext d c point answer = some (t, some next)) : next.Quiet ∨
      (∃ baseName status rows release, point = .evaluate baseName status ∧ answer = .rows rows ∧
        rows.isPerm (s.db.childrenOf baseName) ∧
        d.rt.evaluateWave baseName status rows = .release release ∧ next = .wave c (.release release)) ∨
      ∃ release, point = .release release ∧ t.db = s.db.ungate release.jobName ∧
        next = .ready c release.jobName (some release) .hasPendingHold := by
  unfold waveNext at h
  split at h
  · obtain ⟨-, hnext⟩ := Prod.mk.inj (some.inj h)
    obtain ⟨baseJobName, -, rfl⟩ := map_eq_some_iff.1 hnext
    exact .inl trivial
  · obtain ⟨hperm, h⟩ := ite_none_right_eq_some.1 h
    split at h
    · cases h
    · next heval =>
      cases h
      exact .inr (.inl ⟨_, _, _, _, rfl, rfl, hperm, heval, rfl⟩)
    · cases h
      exact .inl trivial
  · cases h
    exact .inr (.inr ⟨_, rfl, rfl, rfl⟩)
  · cases h
  · cases h
  · split at h <;> cases h <;> exact .inl trivial
  · cases h
    exact .inl trivial
  · cases (ite_none_right_eq_some.1 h).2
    exact .inl trivial
  · cases h

/-- A child that is picked comes first. -/
theorem WaveSound.picked (h : WaveSound d base m s) (horder : d.rt.LocaleOrder)
    (hok : KeepsWave d base s a)
    {baseName : JsString} (hpick : s.Picks d baseName a release) : s.Picked d base m release := by
  obtain ⟨k, c, status, rows, rfl, hcall, hperm, heval⟩ := hpick
  obtain ⟨rfl, ⟨next, hnext, hgated, hname, hfirst⟩, ⟨row, hrow, hpolicy⟩, -⟩ :=
    horder.of_evaluateWave heval
  have hmem : ∀ r, r ∈ rows ↔ r ∈ s.db.childrenOf release.baseJobName := fun r =>
    (isPerm_iff.1 hperm).mem_iff
  have hchild : ∀ r ∈ rows, r ∈ s.db.executionJobs ∧ r.baseJobName = some release.baseJobName :=
    fun r hr =>
    ⟨(mem_filter.1 ((hmem r).1 hr)).1, of_decide_eq_true (mem_filter.1 ((hmem r).1 hr)).2⟩
  refine ⟨⟨hname ▸ (h.rows next (hchild next hnext).1).1 _ (hchild next hnext).2, fun hbase => ?_⟩,
    fun hbase => ⟨(hok.wave k _ c status rfl (hbase ▸ hcall)
      ⟨next, hbase ▸ (hmem next).1 hnext, hgated⟩).1,
      fun _ => ⟨next, (hchild next hnext).1, hname, hbase ▸ (hchild next hnext).2,
        fun _ r hr hr' hg => ?_⟩⟩⟩
  · have hfits := h.rows row (hchild row hrow).1
    exact hfits.2 ((hfits.1 _ (hchild row hrow).2).2 hbase) _ hpolicy
  · exact hfirst r ((hmem r).2 (mem_filter.2 ⟨hr, decide_eq_true (hbase ▸ hr')⟩)) hg

/-- No child is picked before the dispatch of the workflow starts. -/
theorem WaveSound.static_ne_of_picks (h : WaveSound d base m s) (horder : d.rt.LocaleOrder)
    (hok : KeepsWave d base s a) (hpick : s.Picks d base a release) : s.static ≠ .start := by
  intro hstart
  obtain ⟨_, _, _, _, _, _, _, heval⟩ := id hpick
  have hregistered := ((h.picked horder hok hpick).2 (horder.of_evaluateWave heval).1).1
  rw [hstart] at hregistered
  cases hregistered

/-! ### Places -/

theorem isOver_eq_false_of_prefix (hlog : s.log <+: t.log) (h : t.isOver jobId = false) :
    s.isOver jobId = false := by
  rw [isOver, List.any_eq_false] at *
  exact fun e he => h e (hlog.subset he)

/-- What is dispatched was dispatched before, or is handed over now. -/
theorem Executes.dispatched {mat : MaterializedJob} (he : s.Executes d t e)
    (h : .dispatched jobId mat ∈ t.log) : .dispatched jobId mat ∈ s.log ∨ e = .hand jobId mat := by
  cases he with
  | marks _ _ hlog | register _ _ hlog | ungate _ _ hlog | restamp _ _ hlog | delete _ _ hlog =>
    exact .inl (hlog ▸ h)
  | mint _ _ _ hlog => exact .inl (hlog ▸ h)
  | hand _ _ _ hlog =>
    rw [hlog, mem_append, mem_singleton] at h
    refine h.imp_right fun heq => ?_
    cases heq
    rfl
  | status _ _ _ hlog =>
    rw [hlog, mem_append] at h
    refine .inl (h.resolve_right fun hmem => ?_)
    rw [finishedBy] at hmem
    split at hmem
    · cases hmem
    · split at hmem
      · cases mem_singleton.1 hmem
      · split at hmem
        · cases hmem
        · cases mem_singleton.1 hmem

/-- A child that is handed over has a place. -/
theorem WaveSound.holdsPlace_of_hand (h : WaveSound d base m s) (hok : KeepsWave d base s a)
    {mat : MaterializedJob} (hissues : s.Issues a (.hand jobId mat)) (hbase : mat.baseName = base) :
    s.HoldsPlace d base mat.expandedName := by
  cases a with
  | static answer =>
    obtain ⟨rfl, row, todo, jobs, hstatic⟩ := hissues
    refine .inr (.inr ⟨mat, row, ?_, hbase, rfl, hok.static jobId mat row todo jobs rfl hstatic hbase⟩)
    rw [hstatic]
    exact mem_cons_self
  | next k answer =>
    obtain ⟨call, hcall, hissues⟩ := hissues
    rcases hissues.of_hand with ⟨c, jobName, wave, pending, rfl, rfl, rfl⟩ | ⟨c, row, todo, result, rfl⟩
    · obtain ⟨⟨release, rfl, hrelease⟩, hnot⟩ := hok.ready k jobId c jobName wave pending rfl hcall hbase
      have hmem := mem_of_getElem? hcall
      have hname : pending.jobName = jobName := h.sound.calls _ hmem
      subst hname
      exact .inr (.inl ⟨⟨_, hmem, hrelease, rfl⟩, hnot⟩)
    · exact absurd hbase (hok.init k answer c _ rfl hcall)
  | _ => exact hissues.elim

theorem mem_inFlight : name ∈ s.inFlight base ↔ ∃ jobId mat, .dispatched jobId mat ∈ s.log ∧
    mat.baseName = base ∧ mat.expandedName = name ∧ s.isOver jobId = false := by
  rw [inFlight, mem_dedup, mem_filterMap]
  constructor
  · rintro ⟨e, he, heq⟩
    split at heq
    · obtain ⟨hcond, heq⟩ := ite_none_right_eq_some.1 heq
      simp only [Bool.and_eq_true, decide_eq_true_eq, Bool.not_eq_true'] at hcond
      exact ⟨_, _, he, hcond.1, some.inj heq, hcond.2⟩
    · cases heq
  · rintro ⟨jobId, mat, hmem, hbase, rfl, hover⟩
    exact ⟨_, hmem, by simp [hbase, hover]⟩

theorem Picks.unique {baseName : JsString} {release' : WaveRelease} (h : s.Picks d base a release)
    (h' : s.Picks d baseName a release') : release = release' := by
  obtain ⟨k, c, status, rows, rfl, hcall, -, heval⟩ := h
  obtain ⟨k', c', status', rows', heq, hcall', -, heval'⟩ := h'
  cases heq
  cases hcall.symm.trans hcall'
  exact WaveResult.release.inj (heval.symm.trans heval')

/-- A child that is about to be released comes first, if it did not start. -/
theorem WaveKnown.first (h : s.WaveKnown d base m call) (hreleases : call.Releases base name)
    (hnot : ¬s.Started name) : s.First d base name := by
  unfold Releases at hreleases
  split at hreleases
  · obtain ⟨hbase, rfl⟩ := hreleases
    have hpicked : s.Picked d base m _ := h
    exact (hpicked.2 hbase).2 hnot
  · obtain ⟨hbase, rfl⟩ := hreleases
    obtain ⟨rfl, hreleased⟩ : _ ∧ s.Released d base m _ := h
    exact (hreleased.1.2 hbase).2 hnot
  · exact hreleases.elim

/-- A child that has a place is counted when a release is decided, or is the one to be released. -/
theorem WaveSound.counted (h : WaveSound d base m s) (horder : d.rt.LocaleOrder) {k : ℕ}
    {status : ExecutionJobStatus} {children : List ExecutionJob}
    (hok : KeepsWave d base s (.next k (.rows children)))
    (hcall : s.calls[k]? = some (.wave c (.evaluate base status)))
    (hperm : children.isPerm (s.db.childrenOf base))
    (heval : d.rt.evaluateWave base status children = .release release)
    (hplace : s.HoldsPlace d base name) (hne : name ≠ release.jobName) :
    name ∈ (children.filter takesPlace).map (·.jobName) := by
  have hmem : ∀ r, r ∈ children ↔ r ∈ s.db.childrenOf base := fun r => (isPerm_iff.1 hperm).mem_iff
  obtain ⟨-, ⟨next, hnext, hgated, hname, hfirst⟩, -, -⟩ := horder.of_evaluateWave heval
  obtain ⟨hregistered, hcounted, hapart⟩ :=
    hok.wave k _ c status rfl hcall ⟨next, (hmem next).1 hnext, hgated⟩
  have hseen : ∀ r ∈ s.db.childrenOf base, takesPlace r → r.jobName = name →
      name ∈ (children.filter takesPlace).map (·.jobName) := by
    rintro r hr htakes rfl
    exact List.mem_map_of_mem (mem_filter.2 ⟨(hmem r).2 hr, htakes⟩)
  rcases hplace with hrunning | ⟨⟨call, hcall', hreleases⟩, hnot⟩ | ⟨mat, row, htodo, -⟩
  · obtain ⟨row, hrow, hname, htakes⟩ := hcounted name (mem_inFlight.2 hrunning)
    exact hseen row hrow htakes hname
  · obtain ⟨row, hrow, rfl, hbase, hle⟩ := (h.calls call hcall').first hreleases hnot
    have hchild : row ∈ s.db.childrenOf base := mem_filter.2 ⟨hrow, decide_eq_true hbase⟩
    by_cases hwaits : row.waveGated
    · -- The two come before each other, so they are the same.
      have hle' := hle hwaits next (mem_filter.1 ((hmem next).1 hnext)).1
        (of_decide_eq_true (mem_filter.1 ((hmem next).1 hnext)).2) hgated
      have hsame := hapart row hchild next ((hmem next).1 hnext) hwaits hgated hle'
        (hfirst row ((hmem row).2 hchild) hwaits)
      exact absurd (hsame.trans hname) hne
    · have hlive : row.status ∉ TERMINAL_JOB_STATES := fun hterminal => hnot <| by
        obtain ⟨jobId, hfinished⟩ := h.sound.finished row hrow hterminal
        exact .inr ⟨jobId, row.status, hfinished⟩
      exact hseen row hchild (by simp [takesPlace, hwaits, hlive]) rfl
  · generalize hphase : s.static = phase at *
    unfold StaticPhase.registered at hregistered
    split at hregistered
    case h_1 | h_2 | h_3 | h_4 => cases htodo
    · cases hregistered

section
variable [DecidableEq κ]

theorem WaveSound.waveStep (h : WaveSound d base m s) (hok : KeepsWave d base s a)
    (hstep : s.step d c a = some t) : WaveStep base s t := by
  obtain ⟨e, he, hissues⟩ := effect_step hstep
  have heffect := h.fitsWave hok hissues
  refine ⟨he.log_mono, fun hregistered => ?_, fun hregistered => ?_⟩
  · rcases static_step hstep with hsame | ⟨answer, -, hnext⟩
    · exact hsame ▸ hregistered
    · exact registered_staticNext hnext hregistered
  · rw [hregistered] at heffect
    exact he.waveRowsKept h.sound.toRowsSound h.rows (by simpa using heffect)

/-- A call goes on to one that knows as much of the child it releases. -/
theorem WaveSound.known_callNext (h : WaveSound d base m s) (horder : d.rt.LocaleOrder)
    (hok : KeepsWave d base s (.next k answer)) (hstep : WaveStep base s t) {call next : PipelineCall κ}
    (hcall : s.calls[k]? = some call) {u : DispatchState κ}
    (hnext : s.callNext d call answer = some (u, some next)) (hdb : t.db = u.db) :
    t.WaveKnown d base m next := by
  have hknown := h.calls call (mem_of_getElem? hcall)
  cases continues_of_callNext hnext with
  | @ready c jobName wave point point' hready =>
    cases wave with
    | none => trivial
    | some release => exact WaveKnown.mono hknown hstep
  | released => exact Released.mono hknown.2 hstep
  | @wave c point next hwave =>
    rcases next_waveNext_cases hwave with hquiet |
      ⟨baseName, status, rows, release, rfl, rfl, hperm, heval, rfl⟩ |
      ⟨release, rfl, hungate, rfl⟩
    · exact waveKnown_of_quiet hquiet
    · exact Picked.mono (h.picked horder hok ⟨k, c, status, rows, rfl, hcall, hperm, heval⟩) hstep
    · exact ⟨rfl, Picked.mono hknown hstep, fun _ => ungated_ungate (hdb.trans hungate)⟩
  | init => trivial

/-- A call that releases a child did so before, or it is picked now. -/
theorem releases_of_callNext (horder : d.rt.LocaleOrder) {k : ℕ} {call next : PipelineCall κ}
    (hcall : s.calls[k]? = some call) (hnext : s.callNext d call answer = some (t, some next))
    (hreleases : next.Releases base name) :
    call.Releases base name ∨ ∃ release, s.Picks d base (.next k answer) release ∧
    release.jobName = name := by
  cases continues_of_callNext hnext with
  | @ready c jobName wave point point' hready =>
    cases wave with
    | none => exact hreleases.elim
    | some release => exact .inl hreleases
  | released => exact hreleases.elim
  | @wave c point next hwave =>
    rcases next_waveNext_cases hwave with hquiet |
      ⟨baseName, status, rows, release, rfl, rfl, hperm, heval, rfl⟩ |
      ⟨release, rfl, -, rfl⟩
    · exact absurd hreleases (not_releases_of_quiet hquiet)
    · obtain ⟨hbase, hname⟩ := hreleases
      obtain rfl : baseName = base := (horder.of_evaluateWave heval).1.symm.trans hbase
      exact .inr ⟨release, ⟨k, c, status, rows, rfl, hcall, hperm, heval⟩, hname⟩
    · exact .inl hreleases
  | init => exact hreleases.elim

section

variable (h : WaveSound d base m s) (horder : d.rt.LocaleOrder)
include h horder

/-- Who has a place had one before, is picked, or is handed over first. -/
theorem WaveSound.holdsPlace_step
    (hok : KeepsWave d base s a) (hstep : s.step d c a = some t) (hplace : t.HoldsPlace d base name) :
    s.HoldsPlace d base name ∨ (∃ release, s.Picks d base a release ∧ release.jobName = name) ∨
      s.static = .start ∧ t.static ≠ .start ∧ ∃ mat ∈ d.run.materializedJobs, mat.baseName = base ∧
        mat.expandedName = name ∧ name ∉ (d.rt.computeWavePlan d.run.materializedJobs).held := by
  obtain ⟨e, he, hissues⟩ := effect_step hstep
  rcases hplace with ⟨jobId, mat, hdispatched, hbase, rfl, hover⟩ | ⟨⟨call, hcall, hreleases⟩, hnot⟩ |
    ⟨mat, row, htodo, hbase, rfl, hheld⟩
  · rcases he.dispatched hdispatched with hold | rfl
    · exact .inl (.inl ⟨jobId, mat, hold, hbase, rfl, isOver_eq_false_of_prefix he.log_mono hover⟩)
    · exact .inl (h.holdsPlace_of_hand hok hissues hbase)
  · have hnot' : ¬s.Started name := fun hstarted => hnot (hstarted.mono he.log_mono)
    rcases mem_calls_step hstep hcall with hold | hbegins |
      ⟨k, answer, call₀, u, rfl, hcall₀, hnext, -, -, -⟩
    · exact .inl (.inr (.inl ⟨⟨call, hold, hreleases⟩, hnot'⟩))
    · exact absurd hreleases (not_releases_of_quiet (quiet_of_begins hbegins))
    · rcases releases_of_callNext horder hcall₀ hnext hreleases with hold | hpick
      · exact .inl (.inr (.inl ⟨⟨call₀, mem_of_getElem? hcall₀, hold⟩, hnot'⟩))
      · exact .inr (.inl hpick)
  · rcases static_step hstep with hsame | ⟨answer, rfl, hnext⟩
    · exact .inl (.inr (.inr ⟨mat, row, hsame ▸ htodo, hbase, rfl, hheld⟩))
    · rcases mem_todo_staticNext hnext htodo with hold | ⟨hstart, data, peers, hnew⟩
      · exact .inl (.inr (.inr ⟨mat, row, hold, hbase, rfl, hheld⟩))
      · exact .inr (.inr ⟨hstart, static_ne_start hnext, mat, (of_hand_mem_staticTasks hnew).1,
          hbase, rfl, hheld⟩)

/-- At most `m` places are taken after a step. -/
theorem WaveSound.places_step (hm : 1 ≤ m)
    (hparallel : ∀ mat ∈ d.run.materializedJobs, mat.baseName = base → mat.lockJob.maxParallel = some m)
    (hok : KeepsWave d base s a) (hstep : s.step d c a = some t) : AtMost m (t.HoldsPlace d base) := by
  have hfrom := fun name (hplace : t.HoldsPlace d base name) => h.holdsPlace_step horder hok hstep hplace
  by_cases hpick : ∃ release, s.Picks d base a release
  · obtain ⟨release, hpick⟩ := hpick
    obtain ⟨k, c', status, children, rfl, hcall, hperm, heval⟩ := id hpick
    obtain ⟨hbase, -, -, hroom⟩ := horder.of_evaluateWave heval
    rw [(h.picked horder hok hpick).1.2 hbase] at hroom
    refine .of_seen (a := release.jobName) ((length_map _).trans_lt hroom)
      (fun name hplace hne => h.counted horder hok hcall hperm heval hplace hne) fun name hplace => ?_
    rcases hfrom name hplace with hold | ⟨release', hpick', rfl⟩ | ⟨hstart, -⟩
    · exact .inl hold
    · exact .inr (hpick'.unique hpick ▸ rfl)
    · exact absurd hstart (h.static_ne_of_picks horder hok hpick)
  · have hnone : ∀ name, ¬∃ release, s.Picks d base a release ∧ release.jobName = name :=
      fun name ⟨release, hpick', _⟩ => hpick ⟨release, hpick'⟩
    by_cases hstart : s.static = .start
    · refine .of_list (d.rt.length_firstChildren_le
        (d.run.materializedJobs.filter (·.baseName = base)) hm)
        fun name hplace => ?_
      rcases hfrom name hplace with hold | hpick' | ⟨-, -, mat, hmem, hbase, rfl, hheld⟩
      · exact absurd hold (h.start hstart name)
      · exact absurd hpick' (hnone name)
      · exact FanoutRuntime.mem_firstChildren hparallel hmem hbase hheld
    · refine h.places.mono fun name hplace => ?_
      rcases hfrom name hplace with hold | hpick' | ⟨hstart', -⟩
      · exact hold
      · exact absurd hpick' (hnone name)
      · exact absurd hstart' hstart

/-- Every step that keeps to the places keeps the fan-out sound. -/
theorem WaveSound.step (hm : 1 ≤ m)
    (hnames : d.names.Nodup)
    (hparallel : ∀ mat ∈ d.run.materializedJobs, mat.baseName = base → mat.lockJob.maxParallel = some m)
    (hok : KeepsWave d base s a) (hstep : s.step d c a = some t) : WaveSound d base m t := by
  obtain ⟨e, he, hissues⟩ := effect_step hstep
  have hwave := h.waveStep hok hstep
  have hstatic : (∀ task ∈ t.static.todo, d.Fits base m task.row) ∧ ∀ row ∈ t.static.rows,
    d.Fits base m row := by
    rcases static_step hstep with hsame | ⟨answer, -, hnext⟩
    · rw [hsame]
      exact ⟨h.todo, h.queued⟩
    · exact fits_staticNext hnames hparallel hnext h.todo h.queued
  refine ⟨h.sound.step hstep, hstatic.1, hstatic.2,
    he.fits h.sound.toRowsSound h.rows (h.fitsWave hok hissues), fun call hcall => ?_,
    h.places_step horder hm hparallel hok hstep, fun hstart name hplace => ?_⟩
  · rcases mem_calls_step hstep hcall with hold | hbegins |
      ⟨k, answer, call₀, u, rfl, hcall₀, hnext, hdb, -, -⟩
    · exact (h.calls call hold).mono hwave
    · exact waveKnown_of_quiet (quiet_of_begins hbegins)
    · exact h.known_callNext horder hok hwave hcall₀ hnext hdb
  · rcases static_step hstep with hsame | ⟨answer, -, hnext⟩
    · have hstart' : s.static = .start := hsame.symm.trans hstart
      rcases h.holdsPlace_step horder hok hstep hplace with hold | ⟨release, hpick, -⟩ | ⟨-, hnew, -⟩
      · exact h.start hstart' name hold
      · exact h.static_ne_of_picks horder hok hpick hstart'
      · exact hnew hstart
    · exact static_ne_start hnext hstart

end

end

theorem waveSound_init :
    WaveSound d base m ({ needs := { db := ⟨.empty _, .empty _⟩ } } : DispatchState κ) := by
  have hnone : ∀ name, ¬({ needs := { db := ⟨.empty _, .empty _⟩ } } : DispatchState κ).HoldsPlace d
    base name := by
    rintro name (⟨jobId, mat, hmem, -⟩ | ⟨⟨call, hmem, -⟩, -⟩ | ⟨mat, row, hmem, -⟩) <;>
      cases hmem
  exact {
    sound := sound_init
    todo := fun _ hmem => absurd hmem not_mem_nil
    queued := fun _ hmem => absurd hmem not_mem_nil
    rows := fun _ hmem => absurd hmem not_mem_nil
    calls := fun _ hmem => absurd hmem not_mem_nil
    places := .none hnone
    start := fun _ => hnone }

end DispatchState

/-- In every run that keeps to the places of a fan-out, at most `m` of its children are dispatched
and not over at a time, if no more may be. -/
theorem length_inFlight_le {κ : Type} [DecidableEq κ] {d : DispatchRun} {c : κ} {base : JsString} {m : ℕ}
    {s : DispatchState κ} (horder : d.rt.LocaleOrder) (hm : 1 ≤ m) (hnames : d.names.Nodup)
    (hparallel : ∀ mat ∈ d.run.materializedJobs, mat.baseName = base → mat.lockJob.maxParallel = some m)
    (h : (dispatchSystem d c).Reachable (KeepsWave d base) s) : (s.inFlight base).length ≤ m := by
  have hsound : s.WaveSound d base m := h.invariant (fun _ hs => hs ▸ DispatchState.waveSound_init)
    fun _ _ _ hs hok hstep => hs.step horder hm hnames hparallel hok hstep
  exact hsound.places.length_le (nodup_dedup _) fun _ hname => .inl (DispatchState.mem_inFlight.1 hname)

/-! ## Running the dispatch -/

theorem localeOrder_lowercaseFanoutRuntime : lowercaseFanoutRuntime.LocaleOrder where
  total a b := by simpa [lowercaseFanoutRuntime] using List.le_total a b
  trans a b c hab hbc := by
    simp only [lowercaseFanoutRuntime, decide_eq_true_eq] at *
    exact List.le_trans hab hbc

/-- A test of the steps that keep to the places. -/
def keepsWave (d : DispatchRun) (base : JsString) (s : DispatchState Unit) : DispatchAction Unit → Bool
  | .static (.accepted _) =>
    match s.static with
    | .tasks (.hand mat _ :: _) _ => mat.baseName ≠ base ||
      mat.expandedName ∉ (d.rt.computeWavePlan d.run.materializedJobs).held
    | _ => true
  | .next k answer =>
    match s.calls[k]?, answer with
    | some (.init _ _), _ => false
    | some (.ready _ jobName (some release) (.dispatch _)), .accepted _ => release.baseJobName = base &&
      s.log.all fun e =>
        match e with
        | .dispatched _ mat => mat.expandedName ≠ jobName
        | .finished _ name _ => name ≠ jobName
    | some (.ready _ _ none (.dispatch pending)), .accepted _ => pending.mat.baseName ≠ base
    | some (.wave _ (.evaluate baseName _)), _ => baseName ≠ base || s.static.registered &&
      ((s.inFlight base).all fun name => (s.db.childrenOf base).any fun row =>
        row.jobName = name && takesPlace row) &&
      ((s.db.childrenOf base).all fun row => (s.db.childrenOf base).all fun r =>
        !row.waveGated || !r.waveGated || !d.rt.localeLe (waveLabel row) (waveLabel r) ||
          !d.rt.localeLe (waveLabel r) (waveLabel row) || row.jobName = r.jobName)
    | _, _ => true
  | _ => true

theorem keepsWave_of_test {d : DispatchRun} {base : JsString} (s : DispatchState Unit)
    (a : DispatchAction Unit) (h : keepsWave d base s a) : KeepsWave d base s a where
  static jobId mat row todo jobs ha hstatic hbase := by
    subst ha
    simpa [keepsWave, hstatic, hbase] using h
  init k answer c point ha hcall := by
    subst ha
    simp [keepsWave, hcall] at h
  ready k jobId c jobName wave pending ha hcall hbase := by
    subst ha
    cases wave with
    | none => simp [keepsWave, hcall, hbase] at h
    | some release =>
      simp only [keepsWave, hcall, Bool.and_eq_true, decide_eq_true_eq, List.all_eq_true] at h
      refine ⟨⟨release, rfl, h.1⟩, ?_⟩
      rintro (⟨id, mat, hmem, hname⟩ | ⟨id, status, hmem⟩)
      · exact of_decide_eq_true (h.2 _ hmem) hname
      · exact of_decide_eq_true (h.2 _ hmem) rfl
  wave k answer c status ha hcall _ := by
    subst ha
    simp only [keepsWave, hcall, ne_eq, decide_not, decide_true, Bool.not_true, Bool.false_or,
      Bool.and_eq_true, List.all_eq_true] at h
    obtain ⟨⟨hregistered, hcounted⟩, hapart⟩ := h
    refine ⟨hregistered, fun name hname => ?_, fun row hrow r hr hg hg' hle hle' => ?_⟩
    · obtain ⟨row, hrow, hsame⟩ := List.any_eq_true.1 (hcounted name hname)
      simp only [Bool.and_eq_true, decide_eq_true_eq] at hsame
      exact ⟨row, hrow, hsame⟩
    · simpa [hg, hg', hle, hle'] using hapart row hrow r hr

/-- A job that runs on two systems, one at a time, next to one that it may need. -/
def waveJobs (needs : List LockNeed) : List LockJob :=
  [{ name := "build" }, { systemsJob "test" ["linux", "macos"] with needs, maxParallel := some 1 }]

def waveRun (needs : List LockNeed) : DispatchRun where
  rt := lowercaseFanoutRuntime
  staticJobs := waveJobs needs
  run := lowercaseFanoutRuntime.materializeStaticJobsSafe (fun _ => .ok []) 100 (waveJobs needs)

/-- The start of a run. -/
def waveStart : DispatchState Unit := { needs := { db := ⟨.empty _, .empty _⟩ } }

/-- The row of a child that was on its own, and of one that waits. -/
def waveRows : List ExecutionJob :=
  [{ jobId := "l", jobName := "test (linux)", status := .success, baseJobName := some "test",
      variantLabel := some "linux", waveMaxParallel := some 1, waveFailFast := some false,
        needsSatisfied := true },
    { jobId := "needs-pending-test (macos)-1", jobName := "test (macos)", status := .pending,
      baseJobName := some "test", variantLabel := some "macos", waveGated := true,
        waveMaxParallel := some 1,
      waveFailFast := some false, needsSatisfied := true }]

/-- One child is over, and the other one is released. -/
def releasingRun : List (DispatchAction Unit) := [
  .static .no, .static (.accepted "b"), .static (.accepted "l"),
    .static (.id "needs-pending-test (macos)-1"),
  .static .ok, .static .ok, .static .ok, .static .ok, .static .ok, .static .ok, .static .ok, .static .ok,
  .onJobStatus "l" "test (linux)" .success, .runWaveSchedulerHook () "l" .success, .next 0 .ok,
  .next 0 (.rows waveRows), .next 0 .ok, .next 0 .no, .next 0 .ok, .next 0 .ok,
    .next 0 .yes, .next 0 .ok,
  .next 0 (.accepted "m"), .next 0 .ok, .next 0 .ok, .next 0 .ok, .next 0 .ok]

/-- A run in which the second child is dispatched when the first one is over. -/
theorem length_inFlight_le_released : ∃ s : DispatchState Unit, s.inFlight "test" = ["test (macos)"] ∧
    (s.inFlight "test").length ≤ 1 := by
  obtain ⟨s, hpath, hs⟩ : ∃ s, (dispatchSystem (waveRun []) ()).Path (KeepsWave (waveRun []) "test")
    waveStart s ∧
      decide (s.inFlight "test" = ["test (macos)"]) :=
    System.exists_path_of_run keepsWave_of_test releasingRun (by decide)
  exact ⟨s, of_decide_eq_true hs,
    length_inFlight_le localeOrder_lowercaseFanoutRuntime le_rfl (by decide)
    (by decide) ⟨waveStart, rfl, hpath⟩⟩

/-- Two children are let through when the job they need is over. -/
def gatedRun : List (DispatchAction Unit) := [
  .static .no, .static (.accepted "b"), .static (.id "needs-pending-test (linux)-1"),
  .static (.id "needs-pending-test (macos)-1"), .static .ok, .static .ok, .static .ok,
    .static .ok, .static .ok,
  .static .ok, .static .ok, .static .ok, .onJobStatus "b" "build" .success,
  .needs (.evaluateDownstreams "build" .success)] ++ List.replicate 9 (.needs (.next 1)) ++ [
  .dispatchReadyJob () "test (linux)", .dispatchReadyJob () "test (macos)",
  .next 0 .no, .next 0 .ok, .next 0 .ok, .next 0 .yes, .next 0 .ok, .next 0 (.accepted "l"),
  .next 1 .no, .next 1 .ok, .next 1 .ok, .next 1 .yes, .next 1 .ok, .next 1 (.accepted "m")]

/-- A run in which two children of a job run, of which one may run at a time. -/
theorem exists_inFlight_exceeds : ∃ s : DispatchState Unit,
    (dispatchSystem (waveRun [.name "build"]) ()).Reachable System.anyStep s ∧
      (∀ mat ∈ (waveRun [.name "build"]).run.materializedJobs, mat.baseName = "test" →
        mat.lockJob.maxParallel = some 1) ∧ ¬(s.inFlight "test").length ≤ 1 := by
  obtain ⟨s, hpath, hs⟩ := (dispatchSystem (waveRun [.name "build"]) ()).exists_path waveStart
      (fun s => (s.inFlight "test").length = 2) System.anyStep_of_true gatedRun (by decide)
  refine ⟨s, ⟨waveStart, rfl, hpath⟩, by decide, ?_⟩
  rw [hs]
  decide

end Kici
