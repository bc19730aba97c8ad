import Kici.Dispatch.WaveRows
import Kici.Fanout.Names
import Kici.Foundation.Lists

/-!
# The waves of a fan-out

The statements that release the children of a fan-out one after the other (`releaseSystem`), and the
invariant that they keep (`WaveRuns.move`).
-/

namespace Kici

open Option Table List

/-!
## The releases of a wave

What happens to a fan-out whose children are registered, of which some are dispatched and the others
wait (`DispatchState.HeldWave`): agents report about the children, on any coordinator, and when a
child is over, the coordinator runs `runWaveSchedulerHook`, which releases the next one by
`dispatchReadyJob` (`releaseSystem`). The statements are those of the dispatch of a run, but that
each end of a job runs the hook here, and nothing else does.

Statements of several coordinators interleave as they like. What a coordinator does one after the
other under its lock may interleave here, too.
-/

inductive ReleaseAction (κ : Type)
  /-- An agent reports about a child; `known` is whether the coordinator knows of that status. -/
  | onJobStatus (coordinator : κ) (jobId : String) (jobName : JsString) (status : ExecutionJobStatus)
      (known : Bool)
  /-- A call executes its next statement. -/
  | next (k : ℕ) (answer : DispatchAnswer)
  /-- The dispatcher rejects the job of a call, which is recorded under an id as one that failed. -/
  | reject (k : ℕ) (jobId : String) (known : Bool)

namespace PipelineCall

variable {κ : Type}

def coordinator : PipelineCall κ → κ
  | .ready c _ _ _ | .wave c _ | .init c _ => c

/-- The call replaces the placeholder of a job by the row of an id. -/
def Swaps (jobId : String) : PipelineCall κ → Prop
  | .ready _ _ _ (.swapDelete id) | .ready _ _ _ (.swapInsert id) => id = jobId
  | _ => False

/-- The hooks that are run for the ends of jobs. -/
def hooks (c : κ) (events : List DispatchEvent) : List (PipelineCall κ) :=
  events.filterMap fun e =>
    match e with
    | .dispatched _ _ => none
    | .finished jobId _ status => some (.wave c (.readBase jobId status))

end PipelineCall

/-- Whether a row is a placeholder of its job. -/
def ExecutionJob.isPlaceholder (row : ExecutionJob) : Bool := isSyntheticJobId row.jobName row.jobId

namespace DispatchState

variable {κ : Type} (s : DispatchState κ) (d : DispatchRun) (base : JsString)

/-- Whether a report leads to the hook: the job is over by it, or was so without the coordinator
knowing. -/
def runsHook (jobId : String) (status : ExecutionJobStatus) (known : Bool) : Bool :=
  status ∈ TERMINAL_JOB_STATES &&
    match s.db.executionJobs.lookup jobId with
    | none => true
    | some row => row.status ∉ TERMINAL_JOB_STATES || (row.status = status && !known)

/-- `onJobStatus` of a coordinator. -/
def onJobStatus (c : κ) (jobId : String) (jobName : JsString) (status : ExecutionJobStatus)
    (known : Bool) : DispatchState κ :=
  { s.writeStatus jobId jobName status with
    calls := s.calls ++ if s.runsHook jobId status known then [.wave c (.readBase jobId status)]
      else [] }

/-- Whether an agent has a child under an id. -/
def hasChild (jobId : String) (jobName : JsString) : Bool :=
  s.minted.lookup jobId = some jobName && jobName ∈ d.childrenOf base &&
    !(js jobId).startsWith NEEDS_PENDING_JOB_ID_PREFIX

/-- Whether a job that the dispatcher rejects is recorded under an id: that of its placeholder, or
else its name, which is the id of no other job. -/
def resolvesTo (jobName : JsString) (jobId : String) : Bool :=
  match s.findSyntheticJobId jobName with
  | some placeholder => jobId = placeholder
  | none => js jobId = jobName && (s.minted.lookup jobId).isNone &&
    (s.db.executionJobs.lookup jobId).all (·.jobName = jobName)

variable [DecidableEq κ]

def releaseStep : ReleaseAction κ → Option (DispatchState κ)
  | .onJobStatus c jobId jobName status known =>
    if s.hasChild d base jobId jobName then some (s.onJobStatus c jobId jobName status known) else none
  | .next k answer => do
    let call ← s.calls[k]?
    let (t, rest) ← s.callNext d call answer
    some { t with
      calls := t.calls.take k ++ rest.toList ++ t.calls.drop (k + 1) ++
        PipelineCall.hooks call.coordinator (t.log.drop s.log.length) }
  | .reject k jobId known =>
    match s.calls[k]? with
    | some (.ready c jobName wave (.dispatch _)) =>
      if s.resolvesTo jobName jobId then
        let rest := wave.map fun release => PipelineCall.wave c (.restamp release)
        let t : DispatchState κ :=
          { s with calls := s.calls.take k ++ rest.toList ++ s.calls.drop (k + 1) }
        some (t.onJobStatus c jobId jobName .failed known)
      else none
    | _ => none

/-- The children of a bounded fan-out are registered: some are dispatched, as many as may run if
others wait, which are stored. -/
structure HeldWave (m : ℕ) : Prop where
  calls : s.calls = []
  /-- The rows of the fan-out are those of its children, and each tells how many may run. -/
  children : ∀ row ∈ s.db.executionJobs, row.baseJobName = some base ↔ row.jobName ∈ d.childrenOf base
  parallel : ∀ row ∈ s.db.executionJobs, row.baseJobName = some base → row.waveMaxParallel = some m
  /-- A child has one row, whose id was given to it. -/
  alone : ∀ r ∈ s.db.executionJobs, ∀ row ∈ s.db.executionJobs, row.baseJobName = some base →
    r.jobName = row.jobName → r.jobId = row.jobId
  minted : ∀ row ∈ s.db.executionJobs, row.baseJobName = some base →
    s.minted.lookup row.jobId = some row.jobName
  registered : ∀ e ∈ s.minted, e.2 ∈ d.childrenOf base → ∃ row ∈ s.db.executionJobs.rows, row.jobId = e.1
  /-- A child that waits has a placeholder, and is stored. -/
  held : ∀ row ∈ s.db.executionJobs, row.baseJobName = some base → row.waveGated = true →
    row.isPlaceholder = true ∧ row.status ∉ TERMINAL_JOB_STATES ∧
      ∃ pending ∈ s.contexts, pending.jobName = row.jobName
  /-- One that does not was dispatched, unless it is over. -/
  dispatched : ∀ row ∈ s.db.executionJobs, row.baseJobName = some base → row.waveGated = false →
    row.isPlaceholder = false ∧ (row.status ∉ TERMINAL_JOB_STATES →
      ∃ e ∈ s.log, ∃ mat, e = .dispatched row.jobId mat)
  full : (∃ row ∈ s.db.executionJobs.rows, row.baseJobName = some base ∧ row.waveGated = true) →
    m ≤ ((s.db.childrenOf base).filter takesPlace).length

end DispatchState

/-- The releases of a fan-out of a run that is dispatched, of which at most `m` children run at a
time. -/
def releaseSystem {κ : Type} [DecidableEq κ] (d : DispatchRun) (base : JsString) (m : ℕ) :
    System (DispatchState κ) (ReleaseAction κ) where
  init := {s | (∃ c, (dispatchSystem d c).Reachable System.anyStep s) ∧ s.HeldWave d base m}
  step s a := s.releaseStep d base a

/-!
## What a release keeps

The invariant of the releases of a wave (`WaveRuns`): the rows of the children have the columns of
the fan-out or a call is to write them, a child that waits is stored, one that is released is
dispatched by a call, and while some wait, a child runs or a call leads to the next release
(`Driven`).

A step is described by what becomes of the rows (`RowsStep`) and of the calls (`ReleaseMove`), which
is all that the invariant needs (`WaveRuns.move`).
-/

/-- The job is still stored, as far as the call knows. -/
def ReadyPoint.BeforeConsume : ReadyPoint → Prop
  | .hasPendingHold | .needsEdges | .needsStatuses _ | .contextGate | .consume => True
  | _ => False

namespace DispatchState

variable {κ : Type} (s : DispatchState κ) (d : DispatchRun) (base : JsString) (m : ℕ)

/-- A job is stored. -/
def Stored (jobName : JsString) : Prop := ∃ pending ∈ s.contexts, pending.jobName = jobName

/-- The row of an id, if there is one, is that of a job that is not over, and no placeholder. -/
def Swappable (jobId : String) : Prop :=
  (js jobId).startsWith NEEDS_PENDING_JOB_ID_PREFIX = false ∧
    ∀ row ∈ s.db.executionJobs, row.jobId = jobId → row.status ∉ TERMINAL_JOB_STATES

/-- What a call knows of the job it dispatches. -/
def AtPoint (jobName : JsString) : ReadyPoint → Prop
  | .swapDelete jobId => s.Swappable jobId
  | .swapInsert jobId => s.Swappable jobId ∧
    ∀ row ∈ s.db.executionJobs, row.jobName = jobName → row.isPlaceholder = false
  | .skipConsume _ | .skipStatus _ => False
  | _ => True

/-- What a call knows of the fan-out. -/
def ReleaseKnown : PipelineCall κ → Prop
  | .wave _ (.readBase jobId _) =>
    ∀ row ∈ s.db.executionJobs, row.jobId = jobId → row.jobName ∈ d.childrenOf base
  | .wave _ (.evaluate b _) => b = base
  | .wave _ (.release release) | .wave _ (.restamp release) =>
    release.baseJobName = base ∧ d.FitsRelease base m release
  | .ready _ jobName wave point =>
    (∃ release, wave = some release ∧ release.jobName = jobName ∧ release.baseJobName = base ∧
      d.FitsRelease base m release) ∧ s.Ungated jobName ∧ s.AtPoint jobName point
  | _ => False

/-- The call dispatches the job of a placeholder. -/
def Carries (jobName : JsString) : PipelineCall κ → Prop
  | .ready _ name _ (.dispatch _) | .ready _ name _ (.swapDelete _) => name = jobName
  | .ready _ name _ point => name = jobName ∧ point.BeforeConsume ∧ s.Stored jobName
  | _ => False

/-- The call leads to the next release, or to a child that runs. -/
def Drives : PipelineCall κ → Prop
  | .wave _ (.readBase jobId _) => ∃ row ∈ s.db.executionJobs, row.jobId = jobId ∧
    (row.baseJobName = some base ∨ ∃ mat, .dispatched jobId mat ∈ s.log)
  | .wave _ (.evaluate _ _) => True
  | .wave _ (.release release) => ∃ row ∈ s.db.executionJobs, row.jobName = release.jobName ∧
    row.status ∉ TERMINAL_JOB_STATES
  | .ready _ _ _ (.swapInsert _) => True
  | _ => False

/-- A child runs, or is to, or a call leads to the next release. -/
def Driven : Prop :=
  (∃ row ∈ s.db.executionJobs, row.jobName ∈ d.childrenOf base ∧ row.status ∉ TERMINAL_JOB_STATES ∧
    row.waveGated = false) ∨ ∃ call ∈ s.calls, s.Drives base call

end DispatchState

/-- The call writes the columns of the fan-out of a job, now or later. -/
def PipelineCall.Restamps {κ : Type} (jobName : JsString) : PipelineCall κ → Prop
  | .ready _ _ (some release) _ | .wave _ (.restamp release) => release.jobName = jobName
  | _ => False

/-- A row of a child has the job it is a child of if it is a placeholder, and waits only as one. -/
structure DispatchRun.ChildRow (d : DispatchRun) (base : JsString) (m : ℕ) (row : ExecutionJob) :
    Prop where
  fits : d.Fits base m row
  placeholder : row.jobName ∈ d.childrenOf base → row.isPlaceholder = true → row.baseJobName = some base
  gated : row.jobName ∈ d.childrenOf base → row.waveGated = true →
    row.isPlaceholder = true ∧ row.waveMaxParallel = some m ∧ row.status ∉ TERMINAL_JOB_STATES

namespace DispatchState

variable {κ : Type} [DecidableEq κ] {s : DispatchState κ} {d : DispatchRun} {base : JsString} {m : ℕ}

/-- What holds in every run that does not lose the wave. -/
structure WaveRuns (d : DispatchRun) (base : JsString) (m : ℕ) (s : DispatchState κ) : Prop where
  sound : s.Sound
  rows : ∀ row ∈ s.db.executionJobs, d.ChildRow base m row
  /-- A child has one placeholder. -/
  alone : ∀ r ∈ s.db.executionJobs, ∀ row ∈ s.db.executionJobs, row.jobName ∈ d.childrenOf base →
    r.isPlaceholder = true → row.isPlaceholder = true → r.jobName = row.jobName → r.jobId = row.jobId
  /-- The id of a child that is not over was given to it, and the child dispatched. -/
  given : ∀ row ∈ s.db.executionJobs, row.jobName ∈ d.childrenOf base →
    row.status ∉ TERMINAL_JOB_STATES →
    (s.minted.lookup row.jobId).isSome ∧
      (row.isPlaceholder = false → ∃ mat, .dispatched row.jobId mat ∈ s.log)
  /-- A child that waits is stored. -/
  stored : ∀ row ∈ s.db.executionJobs, row.jobName ∈ d.childrenOf base → row.waveGated = true →
    s.Stored row.jobName
  /-- A child that is released is dispatched by a call. -/
  carried : ∀ row ∈ s.db.executionJobs, row.jobName ∈ d.childrenOf base → row.isPlaceholder = true →
    row.waveGated = false → row.status ∉ TERMINAL_JOB_STATES → ∃ call ∈ s.calls,
      s.Carries row.jobName call
  /-- The columns of the fan-out are written into the row of a child that has none of them. -/
  restamped : ∀ row ∈ s.db.executionJobs, row.jobName ∈ d.childrenOf base → row.isPlaceholder = false →
    row.status ∉ TERMINAL_JOB_STATES → row.baseJobName = none → ∃ call ∈ s.calls,
      call.Restamps row.jobName
  /-- The id of a child that was dispatched has a row, or is to get one. -/
  swapped : ∀ jobId, ∀ jobName ∈ d.childrenOf base, s.minted.lookup jobId = some jobName →
    (js jobId).startsWith NEEDS_PENDING_JOB_ID_PREFIX = false →
      (∃ row ∈ s.db.executionJobs, row.jobId = jobId) ∨ ∃ call ∈ s.calls, call.Swaps jobId
  calls : ∀ call ∈ s.calls, s.ReleaseKnown d base m call
  driven : (∃ row ∈ s.db.executionJobs, row.jobName ∈ d.childrenOf base ∧ row.waveGated = true) →
    s.Driven d base

end DispatchState

/-! ### Rows that go on -/

/-- A row goes on as another one: it may get the columns of the fan-out, wait no longer, and be over
if it does not wait. -/
structure DispatchRun.Follows (d : DispatchRun) (base : JsString) (m : ℕ) (r row : ExecutionJob) :
    Prop where
  jobId : row.jobId = r.jobId
  jobName : row.jobName = r.jobName
  base : row.baseJobName = r.baseJobName ∨ row.baseJobName = some base ∧ row.jobName ∈ d.childrenOf base
  parallel : row.waveMaxParallel = r.waveMaxParallel ∨ row.waveMaxParallel = some m
  gated : row.waveGated = true → r.waveGated = true ∧ row.status = r.status
  live : row.status ∉ TERMINAL_JOB_STATES → r.status ∉ TERMINAL_JOB_STATES

/-- The row of a child that has none of the columns of the fan-out. -/
structure DispatchRun.NewChild (d : DispatchRun) (base : JsString) (row : ExecutionJob) : Prop where
  child : row.jobName ∈ d.childrenOf base
  placeholder : row.isPlaceholder = false
  gated : row.waveGated = false
  base : row.baseJobName = none
  parallel : row.waveMaxParallel = none

namespace DispatchRun

variable {d : DispatchRun} {base : JsString} {m : ℕ} {r row : ExecutionJob}

theorem Follows.refl (r : ExecutionJob) : d.Follows base m r r where
  jobId := rfl
  jobName := rfl
  base := .inl rfl
  parallel := .inl rfl
  gated h := ⟨h, rfl⟩
  live := id

/-- A row whose columns stay as they are, but that it may wait no longer. -/
theorem follows_of_columns (hid : row.jobId = r.jobId) (hname : row.jobName = r.jobName)
    (hbase : row.baseJobName = r.baseJobName) (hparallel : row.waveMaxParallel = r.waveMaxParallel)
    (hgated : row.waveGated → r.waveGated) (hstatus : row.status = r.status) :
    d.Follows base m r row where
  jobId := hid
  jobName := hname
  base := .inl hbase
  parallel := .inl hparallel
  gated h := ⟨hgated h, hstatus⟩
  live := hstatus ▸ id

theorem Follows.isPlaceholder (h : d.Follows base m r row) : row.isPlaceholder = r.isPlaceholder := by
  rw [ExecutionJob.isPlaceholder, h.jobId, h.jobName, ← ExecutionJob.isPlaceholder]

theorem Follows.ungated (h : d.Follows base m r row) (hr : r.waveGated = false) :
    row.waveGated = false := by
  rw [← Bool.not_eq_true] at *
  exact fun hrow => hr (h.gated hrow).1

theorem Follows.based (h : d.Follows base m r row) (hr : r.baseJobName = some base) :
    row.baseJobName = some base :=
  h.base.elim (fun heq => heq.trans hr) And.left

theorem Follows.unbased (h : d.Follows base m r row) (hrow : row.baseJobName = none) :
    r.baseJobName = none := by
  rcases h.base with heq | ⟨hbase, -⟩
  · exact heq ▸ hrow
  · rw [hbase] at hrow
    cases hrow

theorem ChildRow.follows (h : d.ChildRow base m r) (hrow : d.Follows base m r row) :
    d.ChildRow base m row where
  fits := by
    refine ⟨fun b hb => ?_, fun hchild k hk => ?_⟩
    · rcases hrow.base with heq | ⟨hbase, hchild⟩
      · exact hrow.jobName ▸ h.fits.1 b (heq ▸ hb)
      · obtain rfl := some.inj (hbase.symm.trans hb)
        exact iff_of_true hchild rfl
    · rcases hrow.parallel with heq | hm
      · exact h.fits.2 (hrow.jobName ▸ hchild) k (heq ▸ hk)
      · exact (some.inj (hm.symm.trans hk)).symm
  placeholder hchild hplaceholder :=
    hrow.based (h.placeholder (hrow.jobName ▸ hchild) (hrow.isPlaceholder ▸ hplaceholder))
  gated hchild hgated := by
    obtain ⟨hr, hstatus⟩ := hrow.gated hgated
    obtain ⟨hplaceholder, hparallel, hlive⟩ := h.gated (hrow.jobName ▸ hchild) hr
    exact ⟨hrow.isPlaceholder ▸ hplaceholder, hrow.parallel.elim (fun heq => heq.trans hparallel) id,
      hstatus ▸ hlive⟩

theorem NewChild.childRow (h : d.NewChild base row) : d.ChildRow base m row where
  fits := by
    refine ⟨fun b hb => ?_, fun _ k hk => ?_⟩
    · rw [h.base] at hb
      cases hb
    · rw [h.parallel] at hk
      cases hk
  placeholder _ hplaceholder := by
    rw [h.placeholder] at hplaceholder
    cases hplaceholder
  gated _ hgated := by
    rw [h.gated] at hgated
    cases hgated

end DispatchRun

namespace DispatchState

variable {κ : Type} {s t : DispatchState κ} {d : DispatchRun} {base : JsString} {m : ℕ}
  {fresh ended gone freed : ExecutionJob → Prop} {jobId : String} {jobName : JsString}

/-- A row goes on as another one that is over only if it has ended, and waits as long as it is not
freed. -/
structure GoesOn (d : DispatchRun) (base : JsString) (m : ℕ) (ended freed : ExecutionJob → Prop)
    (r row : ExecutionJob) : Prop where
  follows : d.Follows base m r row
  live : ended r ∨ (r.status ∉ TERMINAL_JOB_STATES → row.status ∉ TERMINAL_JOB_STATES)
  waits : r.waveGated = true → freed r ∨ row.waveGated = true

theorem GoesOn.refl (r : ExecutionJob) : GoesOn d base m ended freed r r := ⟨.refl r, .inr id, .inr⟩

/-- How the rows of a state go on in another one, where some are new, some have ended, some are
deleted, and some no longer wait. -/
structure RowsStep (d : DispatchRun) (base : JsString) (m : ℕ) (s t : DispatchState κ)
    (fresh ended gone freed : ExecutionJob → Prop) : Prop where
  back : ∀ row ∈ t.db.executionJobs, fresh row ∨ ∃ r ∈ s.db.executionJobs,
    GoesOn d base m ended freed r row
  forth : ∀ r ∈ s.db.executionJobs, gone r ∨ ∃ row ∈ t.db.executionJobs,
    GoesOn d base m ended freed r row

/-- No row. -/
abbrev noRow : ExecutionJob → Prop := fun _ => False

theorem rowsStep_of_rows (hdb : t.db.executionJobs = s.db.executionJobs) :
    RowsStep d base m s t noRow noRow noRow noRow where
  back row hrow := .inr ⟨row, hdb ▸ hrow, .refl row⟩
  forth r hr := .inr ⟨r, hdb ▸ hr, .refl r⟩

theorem rowsStep_update {u : Update ExecutionJob.jobId} (hdb : t.db = s.db.update u)
    (h : ∀ r ∈ s.db.executionJobs, u.guard r → GoesOn d base m noRow freed r (u.set r)) :
    RowsStep d base m s t noRow noRow noRow freed := by
  have hmem : ∀ r ∈ s.db.executionJobs, GoesOn d base m noRow freed r (u.apply r) := by
    intro r hr
    rw [Update.apply]
    split
    · next hg => exact h r hr hg
    · exact .refl r
  refine ⟨fun row hrow => ?_, fun r hr => ?_⟩
  · rw [hdb] at hrow
    obtain ⟨r, hr, rfl⟩ := mem_map.1 hrow
    exact .inr ⟨r, hr, hmem r hr⟩
  · exact .inr ⟨u.apply r, hdb ▸ mem_map_of_mem hr, hmem r hr⟩

/-- What is found is the id of a placeholder of the job. -/
theorem mem_of_findSyntheticJobId (h : s.findSyntheticJobId jobName = some jobId) :
    ∃ row ∈ s.db.executionJobs, row.jobId = jobId ∧ row.jobName = jobName ∧ row.isPlaceholder := by
  obtain ⟨row, hfind, rfl⟩ := map_eq_some_iff.1 h
  have htest := find?_some hfind
  obtain ⟨hname, hsynthetic⟩ := Bool.and_eq_true_iff.1 htest
  obtain rfl : row.jobName = jobName := of_decide_eq_true hname
  exact ⟨row, mem_of_find?_eq_some hfind, rfl, rfl, hsynthetic⟩

/-- If none is found, the job has no placeholder. -/
theorem isPlaceholder_of_findSyntheticJobId_eq_none (h : s.findSyntheticJobId jobName = none) :
    ∀ row ∈ s.db.executionJobs, row.jobName = jobName → row.isPlaceholder = false := by
  rintro row hrow rfl
  have hnone := find?_eq_none.1 (map_eq_none_iff.1 h) row hrow
  simpa [ExecutionJob.isPlaceholder] using hnone

/-- The placeholder of a job is deleted, if it has one. -/
theorem rowsStep_delete (hdb : t.db = (s.deleteSynthetic jobName).db) :
    RowsStep d base m s t noRow noRow (·.isPlaceholder) noRow := by
  rw [deleteSynthetic] at hdb
  split at hdb
  · exact ⟨(rowsStep_of_rows (congrArg RunDb.executionJobs hdb)).back, fun r hr =>
      .inr ⟨r, hdb ▸ hr, .refl r⟩⟩
  · next placeholder hfind =>
    have hrows : ∀ r, r ∈ t.db.executionJobs ↔ r ∈ s.db.executionJobs ∧
      r.jobId ≠ placeholder := fun r => by
      rw [hdb]
      exact mem_delete
    refine ⟨fun row hrow => .inr ⟨row, ((hrows row).1 hrow).1, .refl row⟩, fun r hr => ?_⟩
    by_cases hid : r.jobId = placeholder
    · obtain ⟨row, hrow, rfl, -, hplaceholder⟩ := mem_of_findSyntheticJobId hfind
      have hsame : r = row :=
        some.inj ((lookup_of_mem hr).symm.trans (hid ▸ lookup_of_mem hrow))
      exact .inl (hsame ▸ hplaceholder)
    · exact .inr ⟨r, (hrows r).2 ⟨hr, hid⟩, .refl r⟩

/-- A job gets a status, unless it is over. -/
theorem rowsStep_writeStatus {status : ExecutionJobStatus}
    (hdb : t.db = s.db.writeStatus jobId jobName status)
    (hungated : ∀ r ∈ s.db.executionJobs, r.jobId = jobId → r.status ∉ TERMINAL_JOB_STATES →
      r.waveGated = false) :
    RowsStep d base m s t
      (fun row => s.db.executionJobs.lookup jobId = none ∧
        row = { jobId, jobName, status })
      (fun r => r.jobId = jobId ∧ r.status ∉ TERMINAL_JOB_STATES ∧ status ∈ TERMINAL_JOB_STATES)
      noRow noRow := by
  have hstep : ∀ r ∈ s.db.executionJobs, r.jobId = jobId → r.status ∉ TERMINAL_JOB_STATES →
      GoesOn d base m (fun r => r.jobId = jobId ∧ r.status ∉ TERMINAL_JOB_STATES ∧
        status ∈ TERMINAL_JOB_STATES)
        noRow r { r with status } := by
    intro r hr hid hlive
    have hfalse : r.waveGated ≠ true := by simp [hungated r hr hid hlive]
    refine ⟨⟨rfl, rfl, .inl rfl, .inl rfl, fun hgated => absurd hgated hfalse, fun _ => hlive⟩, ?_,
      fun hgated => absurd hgated hfalse⟩
    by_cases hstatus : status ∈ TERMINAL_JOB_STATES
    · exact .inl ⟨hid, hlive, hstatus⟩
    · exact .inr fun _ => hstatus
  refine ⟨fun row hrow => ?_, fun r hr => .inr ?_⟩
  · rw [hdb] at hrow
    rcases mem_db_writeStatus hrow with hr | ⟨r, hr, hid, hlive, rfl⟩ | hnew
    · exact .inr ⟨row, hr, .refl row⟩
    · exact .inr ⟨r, hr, hstep r hr hid hlive⟩
    · exact .inl hnew
  · rw [hdb, RunDb.writeStatus]
    split
    · refine ⟨_, mem_map_of_mem hr, ?_⟩
      rw [Update.apply]
      split
      · next hg =>
        obtain ⟨hid, hlive⟩ := of_decide_eq_true hg
        exact hstep r hr hid hlive
      · exact .refl r
    · exact ⟨r, mem_insertNew_of_mem hr _, .refl r⟩

/-- A row that has the id and the name of a job and nothing else is registered. -/
theorem rowsStep_insert (hdb : t.db = s.db.insertTracked { pendingRow jobName with jobId })
    (hname : ∀ r ∈ s.db.executionJobs, r.jobId = jobId → r.jobName = jobName) :
    RowsStep d base m s t (· = { pendingRow jobName with jobId }) noRow noRow noRow := by
  rw [RunDb.insertTracked] at hdb
  split at hdb
  · refine ⟨fun row hrow => ?_, fun r hr => .inr ⟨r, ?_, .refl r⟩⟩
    · rw [hdb] at hrow
      rcases mem_insertNew hrow with hold | rfl
      · exact .inr ⟨row, hold, .refl row⟩
      · exact .inl rfl
    · rw [hdb]
      exact mem_insertNew_of_mem hr _
  · have hstep : RowsStep d base m s t noRow noRow noRow noRow := by
      refine rowsStep_update hdb fun r hr hg => ⟨?_, .inr id, .inr⟩
      refine DispatchRun.follows_of_columns rfl ?_ (none_or ..) (none_or ..) id rfl
      exact (hname r hr (of_decide_eq_true hg)).symm
    exact ⟨fun row hrow => (hstep.back row hrow).imp False.elim id, hstep.forth⟩

theorem RowsStep.congr {u : DispatchState κ} (h : RowsStep d base m s u fresh ended gone freed)
    (hdb : t.db = u.db) : RowsStep d base m s t fresh ended gone freed :=
  ⟨fun row hrow => h.back row (hdb ▸ hrow), fun r hr => hdb ▸ h.forth r hr⟩

/-- No row starts to wait. -/
theorem RowsStep.ungated {name : JsString} (hrows : RowsStep d base m s t fresh ended gone freed)
    (hfresh : ∀ row, fresh row → row.waveGated = false) (h : s.Ungated name) : t.Ungated name := by
  intro row hrow hname
  rcases hrows.back row hrow with hnew | ⟨r, hr, hgoes⟩
  · exact hfresh row hnew
  · exact hgoes.follows.ungated (h r hr (hgoes.follows.jobName.symm.trans hname))

/-- An id stays that of a job that is not over, unless its row has ended. -/
theorem RowsStep.swappable (hrows : RowsStep d base m s t fresh ended gone freed)
    (hended : ∀ r, ended r → r.jobId ≠ jobId)
    (hfresh : ∀ row, fresh row → row.jobId = jobId → row.status ∉ TERMINAL_JOB_STATES)
    (h : s.Swappable jobId) : t.Swappable jobId := by
  refine ⟨h.1, fun row hrow hid => ?_⟩
  rcases hrows.back row hrow with hnew | ⟨r, hr, hgoes⟩
  · exact hfresh row hnew hid
  · have hrid := hgoes.follows.jobId.symm.trans hid
    exact hgoes.live.elim (fun h' => absurd hrid (hended r h')) fun hlive => hlive (h.2 r hr hrid)

/-! ### What a step keeps -/

/-- What a step of the release does: how the rows go on, that what a call does that is over
(`removed`) is done or goes on, and that a child whose row is over, or whose placeholder is deleted,
leads to the next release. -/
structure ReleaseMove (d : DispatchRun) (base : JsString) (m : ℕ) (s t : DispatchState κ)
    (removed : PipelineCall κ → Prop) (fresh ended gone freed : ExecutionJob → Prop) : Prop where
  sound : t.Sound
  minted : ∀ jobId name, s.minted.lookup jobId = some name → t.minted.lookup jobId = some name
  log : s.log ⊆ t.log
  rows : RowsStep d base m s t fresh ended gone freed
  freshRow : ∀ row, fresh row → d.NewChild base row ∧ (row.status ∉ TERMINAL_JOB_STATES →
    (t.minted.lookup row.jobId).isSome ∧ (∃ mat, .dispatched row.jobId mat ∈ t.log) ∧
      ∃ call ∈ t.calls, call.Restamps row.jobName)
  endedRow : ∀ r ∈ s.db.executionJobs, r.jobName ∈ d.childrenOf base → ended r → t.Driven d base
  goneRow : ∀ r ∈ s.db.executionJobs, gone r → r.isPlaceholder = true ∧ t.Driven d base
  calls : ∀ x ∈ s.calls, removed x ∨ x ∈ t.calls
  known : ∀ x ∈ t.calls, t.ReleaseKnown d base m x ∨ x ∈ s.calls ∧ ∀ jobId, x.Swaps jobId →
    (∀ r, ended r → r.jobId ≠ jobId) ∧
      ∀ row, fresh row → row.jobId = jobId → row.status ∉ TERMINAL_JOB_STATES
  stored : ∀ row ∈ t.db.executionJobs, row.jobName ∈ d.childrenOf base → row.waveGated = true →
    s.Stored row.jobName → t.Stored row.jobName
  carried : ∀ row ∈ t.db.executionJobs, row.jobName ∈ d.childrenOf base → row.isPlaceholder = true →
    row.waveGated = false → row.status ∉ TERMINAL_JOB_STATES →
      ((∃ r ∈ s.db.executionJobs, r.jobName = row.jobName ∧ r.waveGated = true ∧ freed r) ∨
        ∃ x ∈ s.calls, s.Carries row.jobName x) → ∃ x ∈ t.calls, t.Carries row.jobName x
  restamped : ∀ x, removed x → ∀ name, x.Restamps name → (∃ y ∈ t.calls, y.Restamps name) ∨
    ∀ row ∈ t.db.executionJobs, row.jobName = name → row.baseJobName ≠ none
  swapped : ∀ x, removed x → ∀ jobId, x.Swaps jobId → (∃ y ∈ t.calls, y.Swaps jobId) ∨
    ∃ row ∈ t.db.executionJobs, row.jobId = jobId
  given : ∀ jobId name, t.minted.lookup jobId = some name →
    (js jobId).startsWith NEEDS_PENDING_JOB_ID_PREFIX = false →
      s.minted.lookup jobId = some name ∨ ∃ y ∈ t.calls, y.Swaps jobId
  drives : (∃ row ∈ t.db.executionJobs, row.jobName ∈ d.childrenOf base ∧ row.waveGated = true) →
    ∀ x ∈ s.calls, removed x → s.Drives base x → t.Driven d base

variable {removed : PipelineCall κ → Prop} {call : PipelineCall κ}

/-- An id that starts otherwise is that of no placeholder. -/
theorem isSyntheticJobId_eq_false (h : (js jobId).startsWith NEEDS_PENDING_JOB_ID_PREFIX = false) :
    isSyntheticJobId jobName jobId = false := by
  rw [Bool.eq_false_iff] at h ⊢
  intro hsynthetic
  refine h (decide_eq_true ?_)
  have hpre : NEEDS_PENDING_JOB_ID_PREFIX ++ jobName ++ js "-" <+: js jobId :=
    of_decide_eq_true hsynthetic
  rw [append_assoc] at hpre
  exact (prefix_append ..).trans hpre

/-- What a call knows stays so, unless the row that it is to write is over. -/
theorem ReleaseKnown.mono (h : s.ReleaseKnown d base m call)
    (hrows : RowsStep d base m s t fresh ended gone freed)
    (hfresh : ∀ row, fresh row → d.NewChild base row)
    (hswaps : ∀ jobId, call.Swaps jobId → (∀ r, ended r → r.jobId ≠ jobId) ∧
      ∀ row, fresh row → row.jobId = jobId → row.status ∉ TERMINAL_JOB_STATES) :
    t.ReleaseKnown d base m call := by
  unfold ReleaseKnown at *
  split at h
  · intro row hrow hid
    rcases hrows.back row hrow with hnew | ⟨r, hr, hgoes⟩
    · exact (hfresh row hnew).child
    · exact hgoes.follows.jobName ▸ h r hr (hgoes.follows.jobId.symm.trans hid)
  · exact h
  · exact h
  · exact h
  · refine ⟨h.1, hrows.ungated (fun row hrow => (hfresh row hrow).gated) h.2.1, ?_⟩
    obtain ⟨-, -, hpoint⟩ := h
    unfold AtPoint at *
    split at hpoint
    · exact hrows.swappable (hswaps _ rfl).1 (hswaps _ rfl).2 hpoint
    · refine ⟨hrows.swappable (hswaps _ rfl).1 (hswaps _ rfl).2 hpoint.1, fun row hrow hname => ?_⟩
      rcases hrows.back row hrow with hnew | ⟨r, hr, hgoes⟩
      · exact (hfresh row hnew).placeholder
      · exact hgoes.follows.isPlaceholder ▸ hpoint.2 r hr (hgoes.follows.jobName.symm.trans hname)
    · exact hpoint
    · exact hpoint
    · trivial
  · exact h

/-- A call that stays drives the wave on, unless something else does. -/
theorem ReleaseMove.drives_mono (h : ReleaseMove d base m s t removed fresh ended gone freed)
    (hknown : s.ReleaseKnown d base m call) (hdrives : s.Drives base call) :
    t.Driven d base ∨ t.Drives base call := by
  unfold Drives at hdrives
  split at hdrives
  · obtain ⟨r, hr, hid, hbase⟩ := hdrives
    rcases h.rows.forth r hr with hgone | ⟨row, hrow, hgoes⟩
    · exact .inl (h.goneRow r hr hgone).2
    · refine .inr ⟨row, hrow, hgoes.follows.jobId.trans hid, ?_⟩
      exact hbase.imp hgoes.follows.based fun ⟨mat, hmat⟩ => ⟨mat, h.log hmat⟩
  · exact .inr trivial
  · obtain ⟨r, hr, hname, hlive⟩ := hdrives
    have hchild : r.jobName ∈ d.childrenOf base := hname ▸ hknown.2.1.2 hknown.1
    rcases h.rows.forth r hr with hgone | ⟨row, hrow, hgoes⟩
    · exact .inl (h.goneRow r hr hgone).2
    · rcases hgoes.live with hended | hstays
      · exact .inl (h.endedRow r hr hchild hended)
      · exact .inr ⟨row, hrow, hgoes.follows.jobName.trans hname, hstays hlive⟩
  · exact .inr trivial
  · exact hdrives.elim

/-- A wave that goes on goes on after a step. -/
theorem WaveRuns.driven_move (h : WaveRuns d base m s)
    (hmove : ReleaseMove d base m s t removed fresh ended gone freed)
    (hheld : ∃ row ∈ t.db.executionJobs, row.jobName ∈ d.childrenOf base ∧ row.waveGated) :
    t.Driven d base := by
  have hbefore : ∃ r ∈ s.db.executionJobs, r.jobName ∈ d.childrenOf base ∧ r.waveGated := by
    obtain ⟨row, hrow, hchild, hgated⟩ := hheld
    rcases hmove.rows.back row hrow with hnew | ⟨r, hr, hgoes⟩
    · rw [(hmove.freshRow row hnew).1.gated] at hgated
      cases hgated
    · exact ⟨r, hr, hgoes.follows.jobName ▸ hchild, (hgoes.follows.gated hgated).1⟩
  rcases h.driven hbefore with ⟨r, hr, hchild, hlive, hungated⟩ | ⟨call, hcall, hdrives⟩
  · rcases hmove.rows.forth r hr with hgone | ⟨row, hrow, hgoes⟩
    · exact (hmove.goneRow r hr hgone).2
    · rcases hgoes.live with hended | hstays
      · exact hmove.endedRow r hr hchild hended
      · exact .inl ⟨row, hrow, hgoes.follows.jobName ▸ hchild, hstays hlive,
          hgoes.follows.ungated hungated⟩
  · rcases hmove.calls call hcall with hremoved | hstays
    · exact hmove.drives hheld call hcall hremoved hdrives
    · exact (hmove.drives_mono (h.calls call hcall) hdrives).elim id fun hdrives =>
        .inr ⟨call, hstays, hdrives⟩

/-- A step keeps what holds in runs that do not lose the wave. -/
theorem WaveRuns.move (h : WaveRuns d base m s)
    (hmove : ReleaseMove d base m s t removed fresh ended gone freed) : WaveRuns d base m t where
  sound := hmove.sound
  rows row hrow := by
    rcases hmove.rows.back row hrow with hnew | ⟨r, hr, hgoes⟩
    · exact (hmove.freshRow row hnew).1.childRow
    · exact (h.rows r hr).follows hgoes.follows
  alone r' hr' row' hrow' hchild hplaceholder' hplaceholder hname := by
    rcases hmove.rows.back r' hr' with hnew | ⟨r, hr, ⟨hr', -, -⟩⟩
    · rw [(hmove.freshRow r' hnew).1.placeholder] at hplaceholder'
      cases hplaceholder'
    rcases hmove.rows.back row' hrow' with hnew | ⟨row, hrow, ⟨hrow', -, -⟩⟩
    · rw [(hmove.freshRow row' hnew).1.placeholder] at hplaceholder
      cases hplaceholder
    rw [hr'.jobId, hrow'.jobId]
    exact h.alone r hr row hrow (hrow'.jobName ▸ hchild) (hr'.isPlaceholder ▸ hplaceholder')
      (hrow'.isPlaceholder ▸ hplaceholder) (by rw [← hr'.jobName, ← hrow'.jobName, hname])
  given row hrow hchild hlive := by
    rcases hmove.rows.back row hrow with hnew | ⟨r, hr, ⟨hfollows, -, -⟩⟩
    · obtain ⟨hminted, hdispatched, -⟩ := (hmove.freshRow row hnew).2 hlive
      exact ⟨hminted, fun _ => hdispatched⟩
    · obtain ⟨hminted, hdispatched⟩ := h.given r hr (hfollows.jobName ▸ hchild) (hfollows.live hlive)
      obtain ⟨name, hname⟩ := isSome_iff_exists.1 hminted
      rw [hfollows.jobId, hfollows.isPlaceholder]
      exact ⟨isSome_of_eq_some (hmove.minted _ _ hname), fun hplaceholder =>
        (hdispatched hplaceholder).imp fun mat hmat => hmove.log hmat⟩
  stored row hrow hchild hgated := by
    rcases hmove.rows.back row hrow with hnew | ⟨r, hr, ⟨hfollows, -, -⟩⟩
    · rw [(hmove.freshRow row hnew).1.gated] at hgated
      cases hgated
    · have hstored := h.stored r hr (hfollows.jobName ▸ hchild) (hfollows.gated hgated).1
      exact hmove.stored row hrow hchild hgated (hfollows.jobName ▸ hstored)
  carried row hrow hchild hplaceholder hungated hlive := by
    refine hmove.carried row hrow hchild hplaceholder hungated hlive ?_
    rcases hmove.rows.back row hrow with hnew | ⟨r, hr, ⟨hfollows, -, hwaits⟩⟩
    · rw [(hmove.freshRow row hnew).1.placeholder] at hplaceholder
      cases hplaceholder
    · cases hr' : r.waveGated with
      | true =>
        have hfreed := (hwaits hr').resolve_right (by rw [hungated]; exact Bool.false_ne_true)
        exact .inl ⟨r, hr, hfollows.jobName.symm, hr', hfreed⟩
      | false =>
        rw [hfollows.jobName] at hchild ⊢
        exact .inr (h.carried r hr hchild (hfollows.isPlaceholder ▸ hplaceholder) hr'
          (hfollows.live hlive))
  restamped row hrow hchild hplaceholder hlive hbase := by
    rcases hmove.rows.back row hrow with hnew | ⟨r, hr, ⟨hfollows, -, -⟩⟩
    · exact ((hmove.freshRow row hnew).2 hlive).2.2
    · obtain ⟨call, hcall, hrestamps⟩ := h.restamped r hr (hfollows.jobName ▸ hchild)
        (hfollows.isPlaceholder ▸ hplaceholder) (hfollows.live hlive) (hfollows.unbased hbase)
      rw [← hfollows.jobName] at hrestamps
      rcases hmove.calls call hcall with hremoved | hstays
      · rcases hmove.restamped call hremoved _ hrestamps with hnext | hbased
        · exact hnext
        · exact absurd hbase (hbased row hrow rfl)
      · exact ⟨call, hstays, hrestamps⟩
  swapped jobId jobName hchild hminted hid := by
    rcases hmove.given jobId jobName hminted hid with hold | hnew
    · rcases h.swapped jobId jobName hchild hold hid with ⟨r, hr, hrid⟩ | ⟨call, hcall, hswaps⟩
      · rcases hmove.rows.forth r hr with hgone | ⟨row, hrow, ⟨hfollows, -, -⟩⟩
        · have hplaceholder := (hmove.goneRow r hr hgone).1
          rw [ExecutionJob.isPlaceholder, hrid, isSyntheticJobId_eq_false hid] at hplaceholder
          cases hplaceholder
        · exact .inl ⟨row, hrow, hfollows.jobId.trans hrid⟩
      · rcases hmove.calls call hcall with hremoved | hstays
        · exact (hmove.swapped call hremoved jobId hswaps).symm
        · exact .inr ⟨call, hstays, hswaps⟩
    · exact .inr hnew
  calls call hcall := by
    rcases hmove.known call hcall with hknown | ⟨hold, hswaps⟩
    · exact hknown
    · exact (h.calls call hold).mono hmove.rows (fun row hrow => (hmove.freshRow row hrow).1) hswaps
  driven := h.driven_move hmove

end DispatchState

end Kici
