import Kici.Dispatch.WaveMoves

/-!
# Waves that go on

The hook of a child that is over reads the job it is a child of from its row, so that a child whose
end comes before `restamp` has written that column releases no other one: its row took the place of
its placeholder, and another coordinator may report its end between the two (`exists_stranded`). If
the hook finds the column, and nothing stops a child that is released (`KeepsReleases`), then some
child runs while others wait and no call is under way (`not_stranded`).
-/

namespace Kici

open List Option Bool DispatchState False PipelineCall System Table Update

/-! ## The decision -/

namespace FanoutRuntime

variable {rt : FanoutRuntime} {baseName : JsString} {status : ExecutionJobStatus} {m : ℕ}
  {children : List ExecutionJob}

/-- The policy of a wave whose rows agree about it. -/
theorem policy_of_children (hparallel : ∀ row ∈ children, ∀ k, row.waveMaxParallel = some k → k = m)
    (hheld : ∃ row ∈ children, row.waveMaxParallel = some m) :
    ∃ failFast, (children.find? (·.waveMaxParallel.isSome)).bind (fun row =>
      row.waveMaxParallel.map fun maxParallel => (maxParallel, row.waveFailFast.getD false)) = some
      (m, failFast) := by
  obtain ⟨held, hmem, hm⟩ := hheld
  cases hfind : children.find? (·.waveMaxParallel.isSome) with
  | none => simpa [hm] using find?_eq_none.1 hfind held hmem
  | some row =>
    have hsome := find?_some hfind
    obtain ⟨k, hk⟩ := isSome_iff_exists.1 hsome
    obtain rfl := hparallel row (mem_of_find?_eq_some hfind) k hk
    exact ⟨row.waveFailFast.getD false, by simp [hk]⟩

/-- If a child waits, it is not released because there is no place for it. -/
theorem le_of_evaluateWave_noop (hparallel : ∀ row ∈ children, ∀ k, row.waveMaxParallel = some k → k = m)
    (hheld : ∃ row ∈ children, row.waveGated ∧ row.waveMaxParallel = some m)
    (h : rt.evaluateWave baseName status children = .noop) :
    m ≤ (children.filter takesPlace).length := by
  obtain ⟨held, hmem, hgated, hm⟩ := hheld
  obtain ⟨failFast, hpolicy⟩ := policy_of_children hparallel ⟨held, hmem, hm⟩
  have hwaits : rt.sortByLocale waveLabel (children.filter (·.waveGated)) ≠ [] := by
    refine ne_nil_of_mem (a := held) ?_
    exact (mem_insertionSort _).2 (mem_filter.2 ⟨hmem, hgated⟩)
  simp only [evaluateWave, hpolicy] at h
  split at h
  · cases h
  · split at h
    · next hnil => exact absurd hnil hwaits
    · split at h
      · assumption
      · cases h

/-- What is released is a child that waits. -/
theorem mem_of_evaluateWave_release {release : WaveRelease}
    (h : rt.evaluateWave baseName status children = .release release) :
    release.baseJobName = baseName ∧
      (∃ row ∈ children, row.waveGated ∧ row.jobName = release.jobName) ∧
      ∃ row ∈ children, row.waveMaxParallel = some release.maxParallel := by
  rw [evaluateWave] at h
  split at h
  · cases h
  · next maxParallel failFast hpolicy =>
    obtain ⟨row, hfind, hrow⟩ := bind_eq_some_iff.1 hpolicy
    obtain ⟨k, hk, heq⟩ := map_eq_some_iff.1 hrow
    obtain ⟨rfl, -⟩ := Prod.mk.inj heq
    dsimp only at h
    split at h
    · split at h <;> cases h
    · split at h
      · cases h
      · next next rest hheld =>
        split at h
        · cases h
        · cases h
          have hnext : next ∈ rt.sortByLocale waveLabel (children.filter (·.waveGated)) :=
            hheld ▸ mem_cons_self
          obtain ⟨hnext, hgated⟩ := mem_filter.1 ((mem_insertionSort _).1 hnext)
          exact ⟨rfl, ⟨next, hnext, hgated, rfl⟩, row, mem_of_find?_eq_some hfind, hk⟩

end FanoutRuntime

/-! ## Statements of hooks -/

namespace DispatchState

variable {κ : Type} [DecidableEq κ] (s : DispatchState κ) (d : DispatchRun)

/-- Nothing stops a job that is released: it is not held, its needs and its contexts let it through,
it is no invoke gate, and the dispatcher answers, on a coordinator that has the run in memory. -/
def LetsThrough (c : κ) (jobName : JsString) : ReadyPoint → DispatchAnswer → Prop
  | .hasPendingHold, .yes => False
  | .needsStatuses edges, _ => s.db.checkEdges edges = .dispatch
  | .contextGate, .no => False
  | .consume, _ => ∀ pending, (s.consume c jobName).2 = some pending → pending.invoke = false
  | .dispatch _, .no => False
  | .swapDelete _, .no => False
  | _, _ => True

/-- A statement of a hook, of those that do not stop a child that is released: the state and the call
then. -/
inductive Turn : PipelineCall κ → DispatchState κ → Option (PipelineCall κ) → Prop
  | unbased {c : κ} {jobId : String} {status : ExecutionJobStatus}
      (h : (s.db.executionJobs.lookup jobId).bind (·.baseJobName) = none) :
      Turn (.wave c (.readBase jobId status)) s none
  | based {c : κ} {jobId : String} {status : ExecutionJobStatus} {b : JsString}
      (h : (s.db.executionJobs.lookup jobId).bind (·.baseJobName) = some b) :
      Turn (.wave c (.readBase jobId status)) s (some (.wave c (.evaluate b status)))
  | noop {c : κ} {b : JsString} {status : ExecutionJobStatus} {rows : List ExecutionJob}
      (hperm : rows.Perm (s.db.childrenOf b)) (h : d.rt.evaluateWave b status rows = .noop) :
      Turn (.wave c (.evaluate b status)) s none
  | picked {c : κ} {b : JsString} {status : ExecutionJobStatus} {rows : List ExecutionJob}
      {release : WaveRelease} (hperm : rows.Perm (s.db.childrenOf b))
      (h : d.rt.evaluateWave b status rows = .release release) :
      Turn (.wave c (.evaluate b status)) s (some (.wave c (.release release)))
  | ungated {c : κ} {release : WaveRelease} :
      Turn (.wave c (.release release)) (s.withDb (s.db.ungate release.jobName))
        (some (.ready c release.jobName (some release) .hasPendingHold))
  | goesOn {c : κ} {jobName : JsString} {wave : Option WaveRelease} {point point' : ReadyPoint}
      (hpoint : point.BeforeConsume) (hpoint' : point'.BeforeConsume) :
      Turn (.ready c jobName wave point) s (some (.ready c jobName wave point'))
  | consumed {c : κ} {jobName : JsString} {wave : Option WaveRelease} {t : DispatchState κ}
      {pending : PendingJobContext} (h : s.consume c jobName = (t, some pending)) :
      Turn (.ready c jobName wave .consume) t (some (.ready c jobName wave (.dispatch pending)))
  | missing {c : κ} {jobName : JsString} {wave : Option WaveRelease} {t : DispatchState κ}
      (h : s.consume c jobName = (t, none)) :
      Turn (.ready c jobName wave .consume) t (wave.map fun release => .wave c (.restamp release))
  | handed {c : κ} {jobName : JsString} {wave : Option WaveRelease} {pending : PendingJobContext}
      {jobId : String} (hfresh : s.fresh jobId = true) :
      Turn (.ready c jobName wave (.dispatch pending)) (s.hand jobId pending.mat)
        (some (.ready c jobName wave (.swapDelete jobId)))
  | deleted {c : κ} {jobName : JsString} {wave : Option WaveRelease} {jobId : String} :
      Turn (.ready c jobName wave (.swapDelete jobId)) (s.deleteSynthetic jobName)
        (some (.ready c jobName wave (.swapInsert jobId)))
  | inserted {c : κ} {jobName : JsString} {wave : Option WaveRelease} {jobId : String} :
      Turn (.ready c jobName wave (.swapInsert jobId))
        (s.withDb (s.db.insertTracked { pendingRow jobName with jobId }))
        (some (.ready c jobName wave (.stampReady jobId)))
  | stamped {c : κ} {jobName : JsString} {wave : Option WaveRelease} {jobId : String} :
      Turn (.ready c jobName wave (.stampReady jobId)) (s.withDb (s.db.stampReady jobId))
        (wave.map fun release => .wave c (.restamp release))
  | restamped {c : κ} {release : WaveRelease} :
      Turn (.wave c (.restamp release)) (s.withDb (s.db.restamp release)) none

end DispatchState

/-- The steps that do not lose a wave. -/
structure KeepsReleases {κ : Type} [DecidableEq κ] (d : DispatchRun) (s : DispatchState κ)
    (a : ReleaseAction κ) : Prop where
  /-- The end of a child is not reported before its row takes the place of its placeholder. -/
  registered : ∀ c jobId jobName status known, a = .onJobStatus c jobId jobName status known →
    status ∈ TERMINAL_JOB_STATES → ∀ call ∈ s.calls, ¬call.Swaps jobId
  /-- The hook of a child that was dispatched finds the job it is a child of. -/
  stamped : ∀ k answer c jobId status, a = .next k answer →
    s.calls[k]? = some (.wave c (.readBase jobId status)) →
    (∃ mat, .dispatched jobId mat ∈ s.log) →
      ∀ row ∈ s.db.executionJobs, row.jobId = jobId → row.baseJobName ≠ none
  /-- No failure halts the fan-out. -/
  goesOn : ∀ k rows c b status, a = .next k (.rows rows) →
    s.calls[k]? = some (.wave c (.evaluate b status)) →
    ∀ jobNames, d.rt.evaluateWave b status rows ≠ .skipRemaining jobNames
  /-- A child that is released is handed to the dispatcher. -/
  handed : ∀ k answer c jobName wave point, a = .next k answer →
    s.calls[k]? = some (.ready c jobName wave point) →
    s.LetsThrough c jobName point answer

namespace DispatchState

variable {κ : Type} {s t : DispatchState κ} {d : DispatchRun} {base : JsString} {m : ℕ} {jobId : String}
  {jobName : JsString} {call : PipelineCall κ} {k : ℕ} {c : κ}

/-- The row that the next statement of a call inserts. -/
def Inserts : PipelineCall κ → ExecutionJob → Prop
  | .ready _ jobName _ (.swapInsert jobId), row => row = { pendingRow jobName with jobId }
  | _, _ => False

/-- The rows that the next statement of a call may delete. -/
def Deletes : PipelineCall κ → ExecutionJob → Prop
  | .ready _ _ _ (.swapDelete _), row => row.isPlaceholder = true
  | _, _ => False

/-- The rows that wait no longer after the next statement of a call. -/
def Frees : PipelineCall κ → ExecutionJob → Prop
  | .wave _ (.release release), row => row.jobName = release.jobName
  | _, _ => False

/-- A statement that leaves the rows alone. -/
theorem rowsStep_of_db (h : t.db = s.db) : RowsStep d base m s t (Inserts call) noRow (Deletes call)
    (Frees call) where
  back row hrow := .inr ⟨row, h ▸ hrow, .refl row⟩
  forth r hr := .inr ⟨r, h ▸ hr, .refl r⟩

theorem newChild_of_inserts {row : ExecutionJob} (hknown : s.ReleaseKnown d base m call)
    (h : Inserts call row) : d.NewChild base row ∧ row.status ∉ TERMINAL_JOB_STATES := by
  unfold Inserts at h
  split at h
  · obtain ⟨⟨release, -, hname, hbase, hfits⟩, -, hpoint⟩ := hknown
    subst h
    have hlive : ExecutionJobStatus.pending ∉ TERMINAL_JOB_STATES := by decide
    exact ⟨⟨hname ▸ hfits.1.2 hbase, isSyntheticJobId_eq_false hpoint.1.1, rfl, rfl, rfl⟩, hlive⟩
  · exact h.elim

/-- A child whose id is not that of a placeholder does not wait. -/
theorem WaveRuns.ungated_of_id {row : ExecutionJob} (h : WaveRuns d base m s)
    (hrow : row ∈ s.db.executionJobs) (hchild : row.jobName ∈ d.childrenOf base)
    (hid : (js row.jobId).startsWith NEEDS_PENDING_JOB_ID_PREFIX = false) : row.waveGated = false := by
  refine eq_false_iff.2 fun hgated => ?_
  have hplaceholder := ((h.rows row hrow).gated hchild hgated).1
  rw [ExecutionJob.isPlaceholder, isSyntheticJobId_eq_false hid] at hplaceholder
  cases hplaceholder

/-- A child has no placeholder once it is deleted. -/
theorem WaveRuns.deleteSynthetic (h : WaveRuns d base m s) (hchild : jobName ∈ d.childrenOf base) :
    ∀ row ∈ (s.deleteSynthetic jobName).db.executionJobs, row.jobName = jobName →
    row.isPlaceholder = false := by
  rintro row hrow rfl
  rw [deleteSynthetic] at hrow
  split at hrow
  · next hnone => exact isPlaceholder_of_findSyntheticJobId_eq_none hnone row hrow rfl
  · next jobId hsome =>
    obtain ⟨hmem, hne⟩ := mem_delete.1 hrow
    obtain ⟨r, hr, hid, hname, hplaceholder⟩ := mem_of_findSyntheticJobId hsome
    refine eq_false_iff.2 fun hrow' => hne ?_
    exact (h.alone r hr row hmem hchild hplaceholder hrow' hname).symm.trans hid

theorem atPoint_of_beforeConsume {point : ReadyPoint} (h : point.BeforeConsume) :
    s.AtPoint jobName point := by
  unfold ReadyPoint.BeforeConsume at h
  split at h
  case h_1 | h_2 | h_3 | h_4 | h_5 => trivial
  · exact h.elim

theorem carries_iff_of_beforeConsume {name : JsString} {wave : Option WaveRelease} {point : ReadyPoint}
    (h : point.BeforeConsume) :
    s.Carries jobName (.ready c name wave point) ↔ name = jobName ∧ s.Stored jobName := by
  unfold ReadyPoint.BeforeConsume at h
  split at h
  all_goals first
    | exact ⟨fun hcarries => ⟨hcarries.1, hcarries.2.2⟩, fun hcarries =>
      ⟨hcarries.1, trivial, hcarries.2⟩⟩
    | exact h.elim

/-! ## The start -/

/-- It holds once the children are registered. -/
theorem waveRuns_init (hsound : s.Sound) (hm : 0 < m) (h : s.HeldWave d base m) :
    WaveRuns d base m s where
  sound := hsound
  rows row hrow := by
    have hchild := h.children row hrow
    refine ⟨⟨fun b hb => ?_, fun hname k hk => ?_⟩, fun hname _ => hchild.2 hname,
      fun hname hgated => ?_⟩
    · rw [← hchild, hb, some_inj]
    · exact some.inj (hk.symm.trans (h.parallel row hrow (hchild.2 hname)))
    · obtain ⟨hplaceholder, hlive, -⟩ := h.held row hrow (hchild.2 hname) hgated
      exact ⟨hplaceholder, h.parallel row hrow (hchild.2 hname), hlive⟩
  alone r hr row hrow hname _ _ hsame := h.alone r hr row hrow ((h.children row hrow).2 hname) hsame
  given row hrow hname hlive := by
    have hbase := (h.children row hrow).2 hname
    refine ⟨isSome_of_eq_some (h.minted row hrow hbase), fun hplaceholder => ?_⟩
    cases hgated : row.waveGated with
    | true =>
      rw [(h.held row hrow hbase hgated).1] at hplaceholder
      cases hplaceholder
    | false =>
      obtain ⟨e, he, mat, rfl⟩ := (h.dispatched row hrow hbase hgated).2 hlive
      exact ⟨mat, he⟩
  stored row hrow hname hgated := (h.held row hrow ((h.children row hrow).2 hname) hgated).2.2
  carried row hrow hname hplaceholder hgated _ := by
    rw [(h.dispatched row hrow ((h.children row hrow).2 hname) hgated).1] at hplaceholder
    cases hplaceholder
  restamped row hrow hname _ _ hbase := by
    rw [(h.children row hrow).2 hname] at hbase
    cases hbase
  swapped jobId jobName hname hminted _ := by
    obtain ⟨_, _, hsplit, -⟩ := lookup_eq_some_iff.1 hminted
    refine .inl (h.registered (jobId, jobName) ?_ hname)
    rw [hsplit]
    exact mem_append_right _ mem_cons_self
  calls call hcall := by
    rw [h.calls] at hcall
    cases hcall
  driven := by
    rintro ⟨row, hrow, hname, hgated⟩
    have hfull := h.full ⟨row, hrow, (h.children row hrow).2 hname, hgated⟩
    obtain ⟨r, hr⟩ := exists_mem_of_length_pos (hm.trans_le hfull)
    obtain ⟨hr, htakes⟩ := mem_filter.1 hr
    obtain ⟨hmem, hbase⟩ := mem_filter.1 hr
    simp only [takesPlace, and_eq_true, not_eq_true', decide_eq_true_eq] at htakes
    exact .inl ⟨r, hmem, (h.children r hmem).1 (of_decide_eq_true hbase), htakes.2, htakes.1⟩

/-! ## Reports -/

/-- A job that ends is over then. -/
theorem terminal_of_writeStatus {db : RunDb} {status : ExecutionJobStatus}
    (hstatus : status ∈ TERMINAL_JOB_STATES) :
    ∀ row ∈ (db.writeStatus jobId jobName status).executionJobs, row.jobId = jobId →
      row.status ∈ TERMINAL_JOB_STATES := by
  rw [RunDb.writeStatus]
  split
  · intro row hrow hid
    obtain ⟨r, hr, rfl⟩ := mem_map.1 hrow
    have hrid : r.jobId = jobId := (key_apply r).symm.trans hid
    rw [apply]
    split
    · exact hstatus
    · next hnot => exact not_not.1 fun hlive => hnot (decide_eq_true ⟨hrid, hlive⟩)
  · next hnone =>
    intro row hrow hid
    rcases mem_insertNew hrow with hold | rfl
    · rw [← hid, lookup_of_mem hold] at hnone
      cases hnone
    · exact hstatus

theorem db_onJobStatus {status : ExecutionJobStatus} {known : Bool} :
    (s.onJobStatus c jobId jobName status known).db = s.db.writeStatus jobId jobName status := rfl

theorem mem_calls_onJobStatus {status : ExecutionJobStatus} {known : Bool} {x : PipelineCall κ}
    (h : x ∈ (s.onJobStatus c jobId jobName status known).calls) :
    x ∈ s.calls ∨ x = .wave c (.readBase jobId status) := by
  rcases mem_append.1 h with hold | hnew
  · exact .inl hold
  · split at hnew
    · exact .inr (mem_singleton.1 hnew)
    · cases hnew

/-- The end of a job leads to the hook. -/
theorem hook_mem_onJobStatus {status : ExecutionJobStatus} {known : Bool} {r : ExecutionJob}
    (hr : r ∈ s.db.executionJobs) (hlive : r.status ∉ TERMINAL_JOB_STATES)
    (hstatus : status ∈ TERMINAL_JOB_STATES) :
    .wave c (.readBase r.jobId status) ∈ (s.onJobStatus c r.jobId jobName status known).calls := by
  have hruns : s.runsHook r.jobId status known := by
    rw [runsHook, lookup_of_mem hr]
    simp [hlive, hstatus]
  refine mem_append_right _ ?_
  rw [if_pos hruns]
  exact mem_singleton_self _

/-- A call that gives a job its row writes the columns of the fan-out then. -/
theorem WaveRuns.restamps_of_swaps {x : PipelineCall κ} (h : WaveRuns d base m s) (hx : x ∈ s.calls)
    (hswaps : x.Swaps jobId) :
    ∃ name, s.minted.lookup jobId = some name ∧ (∃ mat, .dispatched jobId mat ∈ s.log) ∧
    x.Restamps name ∧
      (js jobId).startsWith NEEDS_PENDING_JOB_ID_PREFIX = false := by
  have hsound := h.sound.calls x hx
  have hknown := h.calls x hx
  unfold Swaps at hswaps
  split at hswaps
  · subst hswaps
    obtain ⟨⟨release, rfl, hname, -⟩, -, hswappable⟩ := hknown
    exact ⟨_, hsound.1, hsound.2.imp fun _ hmat => hmat.1, hname, hswappable.1⟩
  · subst hswaps
    obtain ⟨⟨release, rfl, hname, -⟩, -, hswappable, -⟩ := hknown
    exact ⟨_, hsound.1, hsound.2.imp fun _ hmat => hmat.1, hname, hswappable.1⟩
  · exact hswaps.elim

/-- A report about a child keeps what holds of the wave, if the end of a child comes after its row. -/
theorem WaveRuns.report {status : ExecutionJobStatus} {known : Bool} (h : WaveRuns d base m s)
    (hchild : s.hasChild d base jobId jobName)
    (hregistered : status ∈ TERMINAL_JOB_STATES → ∀ call ∈ s.calls, ¬call.Swaps jobId)
    (ht : t = s.onJobStatus c jobId jobName status known) (hsound : t.Sound) : WaveRuns d base m t := by
  subst ht
  simp only [hasChild, and_eq_true, decide_eq_true_eq, not_eq_true'] at hchild
  obtain ⟨⟨hminted, hname⟩, hid⟩ := hchild
  have hnamed : ∀ r ∈ s.db.executionJobs, r.jobId = jobId → r.jobName = jobName := fun r hr hrid =>
    h.sound.named r hr _ (hrid ▸ hminted)
  have hrows : RowsStep d base m s (s.onJobStatus c jobId jobName status known) _ _ noRow noRow :=
    rowsStep_writeStatus db_onJobStatus fun r hr hrid _ =>
      h.ungated_of_id hr (hnamed r hr hrid ▸ hname) (hrid ▸ hid)
  have hkept : ∀ x ∈ s.calls, x ∈ (s.onJobStatus c jobId jobName status known).calls :=
    fun x hx => mem_append_left _ hx
  have hlog : s.log ⊆ (s.onJobStatus c jobId jobName status known).log := subset_append_left ..
  have hmove : ReleaseMove d base m s _ (fun _ => False) _ _ noRow noRow := {
    sound := hsound
    minted := fun _ _ hlookup => hlookup
    log := hlog
    rows := hrows
    freshRow := by
      rintro row ⟨hnone, rfl⟩
      refine ⟨⟨hname, isSyntheticJobId_eq_false hid, rfl, rfl, rfl⟩, fun _ => ?_⟩
      rcases h.swapped jobId jobName hname hminted hid with ⟨r, hr, rfl⟩ | ⟨call, hcall, hswaps⟩
      · rw [lookup_of_mem hr] at hnone
        cases hnone
      · obtain ⟨name, hminted', ⟨mat, hdispatched⟩, hrestamps, -⟩ := h.restamps_of_swaps hcall hswaps
        obtain rfl := some.inj (hminted.symm.trans hminted')
        exact ⟨isSome_of_eq_some hminted, ⟨mat, hlog hdispatched⟩, call, hkept call hcall, hrestamps⟩
    endedRow := by
      rintro r hr hrname ⟨rfl, hlive, hstatus⟩
      rcases hrows.forth r hr with hgone | ⟨row, hrow, hgoes⟩
      · exact hgone.elim
      · obtain ⟨mat, hmat⟩ := (h.given r hr hrname hlive).2 (isSyntheticJobId_eq_false hid)
        have hhook : wave c (.readBase r.jobId status) ∈
          (s.onJobStatus c r.jobId jobName status known).calls :=
          hook_mem_onJobStatus hr hlive hstatus
        exact .inr ⟨_, hhook, row, hrow, hgoes.follows.jobId, .inr ⟨mat, hlog hmat⟩⟩
    goneRow := fun _ _ => elim
    calls := fun x hx => .inr (hkept x hx)
    known := by
      intro x hx
      rcases mem_calls_onJobStatus hx with hold | rfl
      · refine .inr ⟨hold, fun id hswaps => ⟨?_, ?_⟩⟩
        · rintro r ⟨hrid, -, hstatus⟩ rfl
          exact hregistered hstatus x hold (hrid ▸ hswaps)
        · rintro row ⟨-, rfl⟩ rfl hstatus
          exact hregistered hstatus x hold hswaps
      · refine .inl fun row hrow hrid => ?_
        rcases hrows.back row hrow with ⟨-, rfl⟩ | ⟨r, hr, hgoes⟩
        · exact hname
        · rw [hgoes.follows.jobName, hnamed r hr (hgoes.follows.jobId.symm.trans hrid)]
          exact hname
    stored := fun _ _ _ _ hstored => hstored
    carried := by
      rintro row - - - - - (⟨r, -, -, -, hfreed⟩ | ⟨x, hx, hcarries⟩)
      · exact hfreed.elim
      · exact ⟨x, hkept x hx, hcarries⟩
    restamped := fun _ => elim
    swapped := fun _ => elim
    given := fun _ _ hlookup _ => .inl hlookup
    drives := fun _ _ _ => elim }
  exact h.move hmove

/-- Under the id that a job that is rejected has, there is no other one. -/
theorem jobName_of_resolvesTo (h : s.resolvesTo jobName jobId) :
    ∀ r ∈ s.db.executionJobs, r.jobId = jobId → r.jobName = jobName := by
  rintro r hr rfl
  rw [resolvesTo] at h
  split at h
  · next placeholder hfind =>
    obtain ⟨row, hrow, hid, hname, -⟩ := mem_of_findSyntheticJobId hfind
    have hsame : r = row := some.inj ((lookup_of_mem hr).symm.trans
      ((of_decide_eq_true h).trans hid.symm ▸ lookup_of_mem hrow))
    exact hsame ▸ hname
  · rw [lookup_of_mem hr] at h
    simp only [and_eq_true, all_some, decide_eq_true_eq] at h
    exact h.2

/-- It is that of the placeholder, or one that was given to no job. -/
theorem placeholder_or_unminted_of_resolvesTo (h : s.resolvesTo jobName jobId) :
    (∃ row ∈ s.db.executionJobs, row.jobId = jobId ∧ row.jobName = jobName ∧ row.isPlaceholder) ∨
      s.findSyntheticJobId jobName = none ∧ js jobId = jobName ∧ s.minted.lookup jobId = none := by
  rw [resolvesTo] at h
  split at h
  · next placeholder hfind => exact .inl (of_decide_eq_true h ▸ mem_of_findSyntheticJobId hfind)
  · next hfind =>
    simp only [and_eq_true, decide_eq_true_eq, isNone_iff_eq_none] at h
    exact .inr ⟨hfind, h.1.1, h.1.2⟩

theorem isSyntheticJobId_of_eq (h : js jobId = jobName) : isSyntheticJobId jobName jobId = false := by
  refine eq_false_iff.2 fun hsynthetic => ?_
  have hpre : NEEDS_PENDING_JOB_ID_PREFIX ++ jobName ++ js "-" <+: js jobId :=
    of_decide_eq_true hsynthetic
  have hlength := hpre.length_le
  rw [h, length_append, length_append] at hlength
  have hpositive : 0 < (js "-").length := by decide
  omega

/-- A child that the dispatcher rejects is over, which leads to the hook. -/
theorem WaveRuns.reject {wave : Option WaveRelease} {pending : PendingJobContext} {known : Bool}
    (h : WaveRuns d base m s) (hk : s.calls[k]? = some (.ready c jobName wave (.dispatch pending)))
    (hresolves : s.resolvesTo jobName jobId)
    (ht : t = onJobStatus
      { s with calls := s.calls.take k ++
        (wave.map fun release => PipelineCall.wave c (.restamp release)).toList ++
          s.calls.drop (k + 1) } c jobId jobName .failed known)
    (hsound : t.Sound) : WaveRuns d base m t := by
  subst ht
  have hcall := mem_of_getElem? hk
  obtain ⟨⟨release, rfl, hrelease, hbase, hfits⟩, hungated, -⟩ := h.calls _ hcall
  have hname : jobName ∈ d.childrenOf base := hrelease ▸ hfits.1.2 hbase
  have hnamed := jobName_of_resolvesTo hresolves
  have hfailed : ExecutionJobStatus.failed ∈ TERMINAL_JOB_STATES := by decide
  generalize hu : ({ s with
    calls := s.calls.take k ++ (Option.map (fun release => wave c (.restamp release))
      (some release)).toList ++ s.calls.drop (k + 1) } : DispatchState κ) = u at hsound ⊢
  have hrows : RowsStep d base m s (u.onJobStatus c jobId jobName .failed known) _ _ noRow noRow :=
    rowsStep_writeStatus (by subst hu; exact db_onJobStatus) fun r hr hid _ =>
      hungated r hr (hnamed r hr hid)
  have hkept : ∀ x ∈ s.calls, x = .ready c jobName (some release) (.dispatch pending) ∨
      x ∈ (u.onJobStatus c jobId jobName .failed known).calls := by
    intro x hx
    rcases eq_or_mem_replaced hk hx with hsame | hstays
    · exact .inl hsame
    · subst hu
      exact .inr (mem_append_left _ hstays)
  have hrestamp : wave c (.restamp release) ∈ (u.onJobStatus c jobId jobName .failed known).calls := by
    subst hu
    exact mem_append_left _ (mem_append_left _ (mem_append_right _ (mem_singleton_self _)))
  have hlog : s.log ⊆ (u.onJobStatus c jobId jobName .failed known).log := by
    subst hu
    exact subset_append_left ..
  -- The id is not one that another call gives to a row.
  have hother : ∀ x ∈ s.calls, ¬x.Swaps jobId := by
    intro x hx hswaps
    obtain ⟨name, hminted, -, -, hid⟩ := h.restamps_of_swaps hx hswaps
    rcases placeholder_or_unminted_of_resolvesTo hresolves with ⟨row, -, rfl, -, hplaceholder⟩ |
      ⟨-, -, hnone⟩
    · rw [ExecutionJob.isPlaceholder, isSyntheticJobId_eq_false hid] at hplaceholder
      cases hplaceholder
    · rw [hnone] at hminted
      cases hminted
  have hmove : ReleaseMove d base m s (u.onJobStatus c jobId jobName .failed known)
      (· = .ready c jobName (some release) (.dispatch pending)) _ _ noRow noRow := {
    sound := hsound
    minted := by
      subst hu
      exact fun _ _ hlookup => hlookup
    log := hlog
    rows := hrows
    freshRow := by
      rintro row ⟨hnone, rfl⟩
      refine ⟨?_, fun hlive => absurd hfailed hlive⟩
      rcases placeholder_or_unminted_of_resolvesTo hresolves with ⟨row, hrow, rfl, -⟩ | ⟨-, hid, -⟩
      · rw [lookup_of_mem hrow] at hnone
        cases hnone
      · exact ⟨hname, isSyntheticJobId_of_eq hid, rfl, rfl, rfl⟩
    endedRow := by
      rintro r hr hchild ⟨rfl, hlive, -⟩
      rcases hrows.forth r hr with hgone | ⟨row, hrow, hgoes⟩
      · exact hgone.elim
      rcases placeholder_or_unminted_of_resolvesTo hresolves with
        ⟨r', hr', hid, hrname, hplaceholder⟩ | ⟨-, -, hnone⟩
      · obtain rfl : r' = r := some.inj ((lookup_of_mem hr').symm.trans
          (hid ▸ lookup_of_mem hr))
        have hbased := (h.rows r' hr').placeholder (hrname ▸ hname) hplaceholder
        have hhook : wave c (.readBase r'.jobId .failed) ∈
          (u.onJobStatus c r'.jobId jobName .failed known).calls :=
          hook_mem_onJobStatus (by subst hu; exact hr') hlive hfailed
        exact .inr ⟨_, hhook, row, hrow, hgoes.follows.jobId, .inl (hgoes.follows.based hbased)⟩
      · have hminted := (h.given r hr hchild hlive).1
        rw [hnone] at hminted
        cases hminted
    goneRow := fun _ _ => elim
    calls := hkept
    known := by
      intro x hx
      have hnew : (u.onJobStatus c jobId jobName .failed known).ReleaseKnown d base m
        (.wave c (.readBase jobId .failed)) := by
        intro row hrow hid
        rcases hrows.back row hrow with ⟨-, rfl⟩ | ⟨r, hr, hgoes⟩
        · exact hname
        · rw [hgoes.follows.jobName, hnamed r hr (hgoes.follows.jobId.symm.trans hid)]
          exact hname
      rcases mem_calls_onJobStatus hx with hold | rfl
      · rw [← hu] at hold
        rcases mem_or_mem_of_replaced hold with hold | hnext
        · refine .inr ⟨hold, fun id hswaps => ⟨?_, ?_⟩⟩
          · rintro r ⟨hid, -⟩ rfl
            exact hother x hold (hid ▸ hswaps)
          · rintro row ⟨-, rfl⟩ rfl
            exact absurd hswaps (hother x hold)
        · obtain rfl := mem_singleton.1 hnext
          exact .inl ⟨hbase, hfits⟩
      · exact .inl hnew
    stored := by
      subst hu
      exact fun _ _ _ _ hstored => hstored
    carried := by
      rintro row hrow hchild hplaceholder hungated' hlive (⟨r, -, -, -, hfreed⟩ | ⟨x, hx, hcarries⟩)
      · exact hfreed.elim
      rcases hkept x hx with rfl | hstays
      · -- The placeholder of the job is over.
        have hrow' : row ∈ (s.db.writeStatus jobId jobName .failed).executionJobs := by
          subst hu
          exact hrow
        refine absurd (terminal_of_writeStatus hfailed row hrow' ?_) hlive
        obtain rfl : jobName = row.jobName := hcarries
        rcases hrows.back row hrow with ⟨-, hnew⟩ | ⟨r, hr, hgoes⟩
        · exact congrArg ExecutionJob.jobId hnew
        rcases placeholder_or_unminted_of_resolvesTo hresolves with
          ⟨r', hr', hid, hrname, hplaceholder'⟩ | ⟨hnone, -⟩
        · rw [hgoes.follows.jobId, ← hid]
          exact (h.alone r' hr' r hr (hgoes.follows.jobName ▸ hchild) hplaceholder'
            (hgoes.follows.isPlaceholder ▸ hplaceholder) (hrname.trans hgoes.follows.jobName)).symm
        · have hfalse := isPlaceholder_of_findSyntheticJobId_eq_none hnone r hr
            hgoes.follows.jobName.symm
          rw [← hgoes.follows.isPlaceholder, hplaceholder] at hfalse
          cases hfalse
      · subst hu
        exact ⟨x, hstays, hcarries⟩
    restamped := by
      rintro x rfl name hrestamps
      exact .inl ⟨_, hrestamp, hrestamps⟩
    swapped := by
      rintro x rfl id hswaps
      exact hswaps.elim
    given := by
      subst hu
      exact fun _ _ hlookup _ => .inl hlookup
    drives := by
      rintro - x - rfl hdrives
      exact hdrives.elim }
  exact h.move hmove

/-! ## Statements -/

section
variable [DecidableEq κ] {answer : DispatchAnswer} {next : Option (PipelineCall κ)}

theorem turn_of_readyNext {wave : Option WaveRelease} {point : ReadyPoint} {point' : Option ReadyPoint}
    (hpoint : s.AtPoint jobName point) (hok : s.LetsThrough c jobName point answer)
    (h : s.readyNext d c jobName point answer = some (t, point')) :
    s.Turn d (.ready c jobName wave point) t (match point' with
      | some point => some (.ready c jobName wave point)
      | none => wave.map fun release => .wave c (.restamp release)) := by
  unfold readyNext at h
  split at h
  case h_1 | h_8 | h_11 | h_13 => exact hok.elim
  case h_2 | h_3 | h_7 =>
    cases h
    exact .goesOn trivial trivial
  · next edges =>
    have hdispatch : s.db.checkEdges edges = .dispatch := hok
    simp only [hdispatch] at h
    cases h
    exact .goesOn trivial trivial
  · exact hpoint.elim
  · exact hpoint.elim
  · dsimp only at h
    split at h
    · next hconsume =>
      cases h
      exact .missing hconsume
    · next pending hconsume =>
      have hinvoke : pending.invoke = false := hok pending (congrArg Prod.snd hconsume)
      simp only [hinvoke] at h
      cases h
      exact .consumed hconsume
  · obtain ⟨hfresh, heq⟩ := ite_none_right_eq_some.1 h
    cases heq
    exact .handed hfresh
  · cases h
    exact .deleted
  · cases h
    exact .inserted
  · cases h
    exact .stamped
  · cases h

/-- What the next statement of a call does, if nothing stops a child that is released. -/
theorem turn_of_callNext (hok : KeepsReleases d s (.next k answer)) (hcall : s.calls[k]? = some call)
    (hknown : s.ReleaseKnown d base m call) (h : s.callNext d call answer = some (t, next)) :
    s.Turn d call t next := by
  cases call with
  | ready c jobName wave point =>
    obtain ⟨⟨u, point'⟩, hready, heq⟩ := map_eq_some_iff.1 h
    have hok := hok.handed k answer c jobName wave point rfl hcall
    have hturn : s.Turn d (.ready c jobName wave point) u _ := turn_of_readyNext hknown.2.2 hok hready
    cases point' <;> cases heq <;> exact hturn
  | wave c point =>
    simp only [callNext] at h
    unfold waveNext at h
    split at h
    case h_5 | h_6 | h_7 | h_8 => exact hknown.elim
    · cases h
      cases hbase : (s.db.executionJobs.lookup _).bind (·.baseJobName) with
      | none => exact .unbased hbase
      | some b => exact .based hbase
    · next b status rows =>
      obtain ⟨hperm, h⟩ := ite_none_right_eq_some.1 h
      have hperm := isPerm_iff.1 hperm
      split at h
      · next heval =>
        cases h
        exact .noop hperm heval
      · next heval =>
        cases h
        exact .picked hperm heval
      · next jobNames heval => exact absurd heval (hok.goesOn k rows c b status rfl hcall jobNames)
    · cases h
      exact .ungated
    · cases h
      exact .restamped
    · cases h
  | init c point => exact hknown.elim

/-! What all statements have in common. -/

theorem consume_control {result : Option PendingJobContext} (h : s.consume c jobName = (t, result)) :
    t.needs = s.needs ∧ t.calls = s.calls ∧ t.minted = s.minted ∧ t.log = s.log ∧
      t.contexts = s.contexts.filter (·.jobName ≠ jobName) := by
  rw [consume] at h
  split at h <;> cases h <;> exact ⟨rfl, rfl, rfl, rfl, rfl⟩

theorem Turn.calls (h : s.Turn d call t next) : t.calls = s.calls := by
  cases h with
  | consumed h | missing h => exact (consume_control h).2.1
  | deleted => exact (deleteSynthetic_control s _).2.2.2
  | _ => rfl

theorem Turn.minted (h : s.Turn d call t next) {name : JsString}
    (hname : s.minted.lookup jobId = some name) : t.minted.lookup jobId = some name := by
  cases h with
  | consumed h | missing h => rwa [(consume_control h).2.2.1]
  | handed => exact (lookup_append ..).trans (by rw [hname, some_or])
  | deleted => rwa [(deleteSynthetic_control s _).1]
  | _ => exact hname

/-- A statement may hand over a job, and nothing else that is logged. -/
theorem Turn.log (h : s.Turn d call t next) :
    t.log = s.log ∨ ∃ jobId mat, t.log = s.log ++ [.dispatched jobId mat] := by
  cases h with
  | consumed h | missing h => exact .inl (consume_control h).2.2.2.1
  | handed => exact .inr ⟨_, _, rfl⟩
  | deleted => exact .inl (deleteSynthetic_control s _).2.1
  | _ => exact .inl rfl

/-! ### Rows -/

theorem Turn.rowsStep (hturn : s.Turn d call t next) (hsound : s.Sound) (hcall : call ∈ s.calls)
    (hknown : s.ReleaseKnown d base m call) :
    RowsStep d base m s t (Inserts call) noRow (Deletes call) (Frees call) := by
  cases hturn with
  | consumed h | missing h => exact rowsStep_of_db (congrArg NeedsState.db (consume_control h).1)
  | @ungated c release =>
    refine rowsStep_update rfl fun r _ hg => ?_
    have hname : r.jobName = release.jobName := of_decide_eq_true hg
    refine ⟨?_, .inr id, fun _ => .inl hname⟩
    exact DispatchRun.follows_of_columns rfl rfl rfl rfl (fun h => absurd h Bool.false_ne_true) rfl
  | deleted => exact rowsStep_delete rfl
  | inserted =>
    refine rowsStep_insert rfl fun r hr hid => ?_
    exact hsound.named r hr _ (hid ▸ (hsound.calls _ hcall).1)
  | stamped =>
    refine rowsStep_update rfl fun r _ _ => ⟨?_, .inr id, .inr⟩
    exact DispatchRun.follows_of_columns rfl rfl rfl rfl id rfl
  | @restamped c release =>
    refine rowsStep_update rfl fun r _ hg => ⟨?_, .inr id, .inr⟩
    obtain ⟨hbase, hchild, hparallel⟩ := hknown
    have hname : r.jobName = release.jobName := of_decide_eq_true hg
    exact {
      jobId := rfl
      jobName := rfl
      base := .inr ⟨congrArg some hbase, hname ▸ hchild.2 hbase⟩
      parallel := .inr (congrArg some (hparallel hbase))
      gated := fun h => ⟨h, rfl⟩
      live := id }
  | _ => exact rowsStep_of_db rfl

/-! ### Calls -/

/-- What the call knows that goes on. -/
theorem Turn.known (h : WaveRuns d base m s) (hturn : s.Turn d call t next) (hcall : call ∈ s.calls) :
    ∀ x ∈ next, t.ReleaseKnown d base m x := by
  have hknown := h.calls call hcall
  have hrows := hturn.rowsStep h.sound hcall hknown
  have hungated : ∀ {name}, s.Ungated name → t.Ungated name :=
    hrows.ungated fun row hrow => (newChild_of_inserts hknown hrow).1.gated
  have hswappable : ∀ {jobId}, s.Swappable jobId → t.Swappable jobId :=
    hrows.swappable (fun _ => elim) fun row hrow _ => (newChild_of_inserts hknown hrow).2
  have hrestamp : ∀ {c} {jobName} {wave : Option WaveRelease} {point},
      s.ReleaseKnown d base m (.ready c jobName wave point) →
        ∀ x ∈ wave.map fun release => PipelineCall.wave c (.restamp release),
          t.ReleaseKnown d base m x := by
    rintro c jobName wave point ⟨⟨release, rfl, -, hbase, hfits⟩, -⟩ x hx
    cases hx
    exact ⟨hbase, hfits⟩
  intro x hx
  cases hturn with
  | unbased | noop | restamped => cases hx
  | @based c jobId status b hlookup =>
    cases hx
    obtain ⟨row, hrow, hb⟩ := bind_eq_some_iff.1 hlookup
    obtain ⟨hrow, hid⟩ := lookup_eq_some.1 hrow
    exact ((h.rows row hrow).fits.1 b hb).1 (hknown row hrow hid)
  | @picked c b status rows release hperm heval =>
    cases hx
    obtain rfl : b = base := hknown
    obtain ⟨hbase, ⟨row, hrow, -, hname⟩, r, hr, hm⟩ := FanoutRuntime.mem_of_evaluateWave_release heval
    have hchild : ∀ row ∈ rows, row ∈ s.db.executionJobs ∧ row.jobName ∈ d.childrenOf b := by
      intro row hrow
      obtain ⟨hmem, hb⟩ := mem_filter.1 (hperm.mem_iff.1 hrow)
      exact ⟨hmem, ((h.rows row hmem).fits.1 b (of_decide_eq_true hb)).2 rfl⟩
    refine ⟨hbase, iff_of_true (hname ▸ (hchild row hrow).2) hbase, fun _ => ?_⟩
    exact (h.rows r (hchild r hr).1).fits.2 (hchild r hr).2 _ hm
  | @ungated c release =>
    cases hx
    exact ⟨⟨release, rfl, rfl, hknown⟩, ungated_ungate rfl, trivial⟩
  | goesOn hpoint hpoint' =>
    cases hx
    exact ⟨hknown.1, hknown.2.1, atPoint_of_beforeConsume hpoint'⟩
  | consumed | inserted =>
    cases hx
    exact ⟨hknown.1, hungated hknown.2.1, trivial⟩
  | missing | stamped => exact hrestamp hknown x hx
  | @handed c jobName wave pending jobId hfresh =>
    cases hx
    obtain ⟨hunused, hpre⟩ := and_eq_true_iff.1 hfresh
    refine ⟨hknown.1, hknown.2.1, by simpa using hpre, fun row hrow hid => ?_⟩
    have hsome : s.db.executionJobs.lookup jobId = some row := hid ▸ lookup_of_mem hrow
    rw [(unused_iff.1 hunused).2] at hsome
    cases hsome
  | @deleted c jobName wave jobId =>
    cases hx
    obtain ⟨release, -, hname, hbase, hfits⟩ := hknown.1
    exact ⟨hknown.1, hungated hknown.2.1, hswappable hknown.2.2,
      h.deleteSynthetic (hname ▸ hfits.1.2 hbase)⟩

/-- A child that waits stays stored. -/
theorem Turn.stored {row : ExecutionJob} (hturn : s.Turn d call t next)
    (hknown : s.ReleaseKnown d base m call)
    (hrow : row ∈ t.db.executionJobs) (hgated : row.waveGated) (hstored : s.Stored row.jobName) :
    t.Stored row.jobName := by
  have hconsume : ∀ {c jobName result}, s.consume c jobName = (t, result) → s.Ungated jobName →
      t.Stored row.jobName := by
    intro c jobName result hconsume hungated
    obtain ⟨hneeds, -, -, -, hcontexts⟩ := consume_control hconsume
    obtain ⟨pending, hmem, hname⟩ := hstored
    have hdb : t.db = s.db := congrArg NeedsState.db hneeds
    refine ⟨pending, hcontexts ▸ mem_filter.2 ⟨hmem, decide_eq_true fun hsame => ?_⟩, hname⟩
    rw [hungated row (hdb ▸ hrow) (hname.symm.trans hsame)] at hgated
    cases hgated
  cases hturn with
  | consumed h | missing h => exact hconsume h hknown.2.1
  | deleted =>
    rw [deleteSynthetic]
    split <;> exact hstored
  | _ => exact hstored

/-- A job that is stored is found. -/
theorem consume_ne_none (h : s.Stored jobName) (hconsume : s.consume c jobName = (t, none)) : False := by
  obtain ⟨pending, hmem, hname⟩ := h
  rw [consume] at hconsume
  split at hconsume
  · cases hconsume
  · have hnone := find?_eq_none.1 (congrArg Prod.snd hconsume) pending hmem
    exact hnone (decide_eq_true hname)

/-- A job that is stored stays so, or the call dispatches it then. -/
theorem Stored.turn (h : s.Stored jobName) (hturn : s.Turn d call t next) :
    t.Stored jobName ∨ ∃ y ∈ next, t.Carries jobName y := by
  cases hturn with
  | @consumed c name wave t pending hconsume =>
    by_cases hsame : name = jobName
    · exact .inr ⟨_, rfl, hsame⟩
    · obtain ⟨pending, hmem, hname⟩ := h
      have hne : pending.jobName ≠ name := fun heq => hsame (heq.symm.trans hname)
      exact .inl ⟨pending, (consume_control hconsume).2.2.2.2 ▸ mem_filter.2
        ⟨hmem, decide_eq_true hne⟩, hname⟩
  | @missing c name wave t hconsume =>
    have hne : name ≠ jobName := by
      rintro rfl
      exact consume_ne_none h hconsume
    obtain ⟨pending, hmem, hname⟩ := h
    have hne : pending.jobName ≠ name := fun heq => hne (heq.symm.trans hname)
    exact .inl ⟨pending, (consume_control hconsume).2.2.2.2 ▸ mem_filter.2 ⟨hmem, decide_eq_true hne⟩,
      hname⟩
  | deleted =>
    refine .inl ?_
    rw [deleteSynthetic]
    split <;> exact h
  | _ => exact .inl h

/-- A call that carries a job, and does not take the step, still does, unless the job is taken from
what is stored. -/
theorem Carries.turn {x : PipelineCall κ} (h : s.Carries jobName x) (hturn : s.Turn d call t next) :
    t.Carries jobName x ∨ ∃ y ∈ next, t.Carries jobName y := by
  unfold Carries at h
  split at h
  · exact .inl h
  · exact .inl h
  · obtain ⟨hname, hpoint, hstored⟩ := h
    exact (hstored.turn hturn).imp_left fun hstored =>
      (carries_iff_of_beforeConsume hpoint).2 ⟨hname, hstored⟩
  · exact h.elim

/-- A placeholder of a child that is released stays that of a child that a call dispatches. -/
theorem Turn.carried {row : ExecutionJob} (h : WaveRuns d base m s) (hturn : s.Turn d call t next)
    (hrow : row ∈ t.db.executionJobs) (hchild : row.jobName ∈ d.childrenOf base)
    (hplaceholder : row.isPlaceholder)
    (hbefore : (∃ r ∈ s.db.executionJobs, r.jobName = row.jobName ∧ r.waveGated ∧ Frees call r) ∨
      ∃ x ∈ s.calls, s.Carries row.jobName x) :
    (∃ y ∈ next, t.Carries row.jobName y) ∨ ∃ x ∈ s.calls, x ≠ call ∧ t.Carries row.jobName x := by
  rcases hbefore with ⟨r, hr, hname, hgated, hfrees⟩ | ⟨x, hx, hcarries⟩
  · unfold Frees at hfrees
    split at hfrees
    · have hstored := h.stored r hr (hname ▸ hchild) hgated
      cases hturn
      exact .inl ⟨_, rfl, hfrees.symm.trans hname, trivial, hname ▸ hstored⟩
    · exact hfrees.elim
  · by_cases hsame : x = call
    · subst hsame
      refine .inl ?_
      cases hturn with
      | goesOn hpoint hpoint' =>
        exact ⟨_, rfl, (carries_iff_of_beforeConsume hpoint').2
          ((carries_iff_of_beforeConsume hpoint).1 hcarries)⟩
      | consumed => exact ⟨_, rfl, hcarries.1⟩
      | missing hconsume =>
        obtain ⟨rfl, -, hstored⟩ := hcarries
        exact (consume_ne_none hstored hconsume).elim
      | handed => exact ⟨_, rfl, hcarries⟩
      | @deleted c jobName wave jobId =>
        have hname : jobName = row.jobName := hcarries
        have hnone := h.deleteSynthetic (hname ▸ hchild) row (hname ▸ hrow) rfl
        rw [hplaceholder] at hnone
        cases hnone
      | _ => first | exact hcarries.elim | exact hcarries.2.1.elim
    · exact (hcarries.turn hturn).symm.imp_right fun hcarries => ⟨x, hx, hsame, hcarries⟩

/-- The columns that a call is to write are written, or the call goes on to. -/
theorem Turn.restamps {name : JsString} (hturn : s.Turn d call t next) (h : call.Restamps name) :
    (∃ y ∈ next, y.Restamps name) ∨
      ∀ row ∈ t.db.executionJobs, row.jobName = name → row.baseJobName ≠ none := by
  have hready : ∀ {c jobName} {wave : Option WaveRelease} {point},
      (ready (κ := κ) c jobName wave point).Restamps name →
        (∃ release, wave = some release ∧ release.jobName = name) := by
    intro c jobName wave point h
    cases wave with
    | none => exact h.elim
    | some release => exact ⟨release, rfl, h⟩
  cases hturn with
  | goesOn | consumed | handed | deleted | inserted | missing | stamped =>
    obtain ⟨release, rfl, hname⟩ := hready h
    exact .inl ⟨_, rfl, hname⟩
  | @restamped c release =>
    refine .inr fun row hrow hname => ?_
    obtain ⟨r, -, rfl⟩ := mem_map.1 hrow
    rw [apply] at hname ⊢
    split
    · exact some_ne_none _
    · next hnot =>
      rw [if_neg hnot] at hname
      exact absurd (decide_eq_true (hname.trans h.symm)) hnot
  | _ => exact h.elim

/-- The row of an id is there once it is registered. -/
theorem exists_mem_insertTracked {new : ExecutionJob} (db : RunDb) :
    ∃ row ∈ (db.insertTracked new).executionJobs, row.jobId = new.jobId := by
  rw [RunDb.insertTracked]
  split
  · exact exists_mem_insertNew _ _
  · next r hlookup =>
    obtain ⟨hr, hid⟩ := lookup_eq_some.1 hlookup
    exact ⟨_, mem_map_of_mem hr, (key_apply r).trans hid⟩

theorem Turn.swaps (hturn : s.Turn d call t next) (h : call.Swaps jobId) :
    (∃ y ∈ next, y.Swaps jobId) ∨ ∃ row ∈ t.db.executionJobs, row.jobId = jobId := by
  cases hturn with
  | deleted => exact .inl ⟨_, rfl, h⟩
  | inserted =>
    obtain ⟨row, hrow, hid⟩ := exists_mem_insertTracked s.db
    exact .inr ⟨row, hrow, hid.trans h⟩
  | goesOn hpoint =>
    unfold ReadyPoint.BeforeConsume at hpoint
    split at hpoint <;> first | exact h.elim | exact hpoint.elim
  | _ => exact h.elim

/-- An id that is given to a job gets a row. -/
theorem Turn.mints {name : JsString} (hturn : s.Turn d call t next)
    (h : t.minted.lookup jobId = some name) :
    s.minted.lookup jobId = some name ∨ ∃ y ∈ next, y.Swaps jobId := by
  cases hturn with
  | consumed hconsume | missing hconsume => exact .inl ((consume_control hconsume).2.2.1 ▸ h)
  | @handed c jobName wave pending id =>
    have hlookup : (s.minted ++ [(id, pending.mat.expandedName)]).lookup jobId = some name := h
    rw [lookup_append] at hlookup
    rcases or_eq_some_iff.1 hlookup with hold | ⟨-, hnew⟩
    · exact .inl hold
    · refine .inr ⟨_, rfl, ?_⟩
      by_contra hne
      simp [lookup_cons, beq_eq_false_iff_ne.2 (Ne.symm hne)] at hnew
  | deleted => exact .inl ((deleteSynthetic_control s _).1 ▸ h)
  | _ => exact .inl h

/-- What drives the wave on does so after its statement. -/
theorem Turn.drives (h : WaveRuns d base m s) (hm : 0 < m) (hturn : s.Turn d call t next)
    (hcall : call ∈ s.calls)
    (hstamped : ∀ c jobId status, call = .wave c (.readBase jobId status) →
      (∃ mat, .dispatched jobId mat ∈ s.log) →
      ∀ row ∈ s.db.executionJobs, row.jobId = jobId → row.baseJobName ≠ none)
    (hheld : ∃ row ∈ t.db.executionJobs, row.jobName ∈ d.childrenOf base ∧ row.waveGated)
    (hdrives : s.Drives base call) :
    (∃ row ∈ t.db.executionJobs, row.jobName ∈ d.childrenOf base ∧ row.status ∉ TERMINAL_JOB_STATES ∧
      row.waveGated = false) ∨ ∃ y ∈ next, t.Drives base y := by
  have hknown := h.calls call hcall
  cases hturn with
  | @unbased c jobId status hnone =>
    obtain ⟨row, hrow, rfl, hbase⟩ := hdrives
    rw [lookup_of_mem hrow] at hnone
    have hnone : row.baseJobName = none := hnone
    rcases hbase with hbase | hdispatched
    · rw [hnone] at hbase
      cases hbase
    · exact absurd hnone (hstamped c _ status rfl hdispatched row hrow rfl)
  | based => exact .inr ⟨_, rfl, trivial⟩
  | @noop c b status rows hperm heval =>
    obtain rfl : b = base := hknown
    have hrows : ∀ row ∈ rows, row ∈ s.db.executionJobs ∧ row.jobName ∈ d.childrenOf b := by
      intro row hrow
      obtain ⟨hmem, hb⟩ := mem_filter.1 (hperm.mem_iff.1 hrow)
      exact ⟨hmem, ((h.rows row hmem).fits.1 b (of_decide_eq_true hb)).2 rfl⟩
    obtain ⟨held, hmem, hchild, hgated⟩ := hheld
    obtain ⟨hplaceholder, hparallel, -⟩ := (h.rows held hmem).gated hchild hgated
    have hheld : held ∈ rows := hperm.mem_iff.2
      (mem_filter.2 ⟨hmem, decide_eq_true ((h.rows held hmem).placeholder hchild hplaceholder)⟩)
    have hroom := FanoutRuntime.le_of_evaluateWave_noop
      (fun row hrow => (h.rows row (hrows row hrow).1).fits.2 (hrows row hrow).2)
        ⟨held, hheld, hgated, hparallel⟩ heval
    -- There is no place for a child, so that one of them runs.
    obtain ⟨row, hrow⟩ := exists_mem_of_length_pos (hm.trans_le hroom)
    obtain ⟨hrow, htakes⟩ := mem_filter.1 hrow
    simp only [takesPlace, and_eq_true, not_eq_true', decide_eq_true_eq] at htakes
    exact .inl ⟨row, (hrows row hrow).1, (hrows row hrow).2, htakes.2, htakes.1⟩
  | @picked c b status rows release hperm heval =>
    obtain rfl : b = base := hknown
    obtain ⟨-, ⟨row, hrow, hgated, hname⟩, -⟩ := FanoutRuntime.mem_of_evaluateWave_release heval
    obtain ⟨hmem, hb⟩ := mem_filter.1 (hperm.mem_iff.1 hrow)
    have hchild := ((h.rows row hmem).fits.1 b (of_decide_eq_true hb)).2 rfl
    exact .inr ⟨_, rfl, row, hmem, hname, ((h.rows row hmem).gated hchild hgated).2.2⟩
  | @ungated c release =>
    obtain ⟨r, hr, hname, hlive⟩ := hdrives
    have hchild : r.jobName ∈ d.childrenOf base := hname ▸ hknown.2.1.2 hknown.1
    refine .inl ⟨_, mem_map_of_mem hr, ?_⟩
    rw [apply_of_guard (decide_eq_true hname)]
    exact ⟨hchild, hlive, rfl⟩
  | @inserted c jobName wave jobId =>
    have hrows := Turn.rowsStep (d := d) .inserted h.sound hcall hknown
    have hexists : ∃ row ∈ (s.db.insertTracked { pendingRow jobName with jobId }).executionJobs,
      row.jobId = jobId := exists_mem_insertTracked s.db
    obtain ⟨row, hrow, hid⟩ := hexists
    refine .inl ⟨row, hrow, ?_⟩
    rcases hrows.back row hrow with hnew | ⟨r, hr, hgoes⟩
    · obtain ⟨hnew, hlive⟩ := newChild_of_inserts hknown hnew
      exact ⟨hnew.child, hlive, hnew.gated⟩
    · obtain ⟨⟨release, -, hname, hbase, hfits⟩, -, hswappable, -⟩ := hknown
      have hrid : r.jobId = jobId := hgoes.follows.jobId.symm.trans hid
      have hrname : r.jobName = jobName := h.sound.named r hr _ (hrid ▸ (h.sound.calls _ hcall).1)
      have hchild : r.jobName ∈ d.childrenOf base := hrname ▸ hname ▸ hfits.1.2 hbase
      have hungated := h.ungated_of_id hr hchild (hrid ▸ hswappable.1)
      refine ⟨hgoes.follows.jobName ▸ hchild, ?_, hgoes.follows.ungated hungated⟩
      exact hgoes.live.elim elim fun hlive => hlive (hswappable.2 r hr hrid)
  | goesOn hpoint =>
    unfold ReadyPoint.BeforeConsume at hpoint
    split at hpoint <;> first | exact hdrives.elim | exact hpoint.elim
  | _ => exact hdrives.elim

/-- A statement that stops no child keeps what holds of the wave. -/
theorem WaveRuns.turn {u : DispatchState κ} (h : WaveRuns d base m s) (hm : 0 < m)
    (hk : s.calls[k]? = some call) (hturn : s.Turn d call u next)
    (hstamped : ∀ c jobId status, call = .wave c (.readBase jobId status) →
      (∃ mat, .dispatched jobId mat ∈ s.log) →
      ∀ row ∈ s.db.executionJobs, row.jobId = jobId → row.baseJobName ≠ none)
    (ht : t = { u with calls := u.calls.take k ++ next.toList ++ u.calls.drop (k + 1) })
    (hsound : t.Sound) : WaveRuns d base m t := by
  have hcall := mem_of_getElem? hk
  have hknown := h.calls call hcall
  have hcalls : t.calls = s.calls.take k ++ next.toList ++ s.calls.drop (k + 1) := by
    rw [ht, ← hturn.calls]
  have hkept : ∀ x ∈ s.calls, x = call ∨ x ∈ t.calls := fun x hx => hcalls ▸ eq_or_mem_replaced hk hx
  have hnext : ∀ x ∈ next, x ∈ t.calls := by
    intro x hx
    rw [hcalls]
    exact mem_append_left _ (mem_append_right _ (mem_toList.2 hx))
  have hmove : ReleaseMove d base m s t (· = call) (Inserts call) noRow (Deletes call) (Frees call) := {
    sound := hsound
    minted := fun jobId name hname => ht ▸ hturn.minted hname
    log := by
      rw [ht]
      rcases hturn.log with hlog | ⟨jobId, mat, hlog⟩
      · exact hlog ▸ List.Subset.refl _
      · exact hlog ▸ subset_append_left ..
    rows := (hturn.rowsStep h.sound hcall hknown).congr (ht ▸ rfl)
    freshRow := by
      intro row hrow
      refine ⟨(newChild_of_inserts hknown hrow).1, fun _ => ?_⟩
      unfold Inserts at hrow
      split at hrow
      · subst hrow
        obtain ⟨hminted, mat, hdispatched, -⟩ := h.sound.calls _ hcall
        obtain ⟨⟨release, rfl, hname, -⟩, -⟩ := hknown
        cases hturn with
        | goesOn hpoint => exact hpoint.elim
        | inserted =>
          subst ht
          exact ⟨isSome_of_eq_some hminted, ⟨mat, hdispatched⟩, _, hnext _ rfl, hname⟩
      · exact hrow.elim
    endedRow := fun _ _ _ => elim
    goneRow := by
      intro r hr hdeletes
      unfold Deletes at hdeletes
      split at hdeletes
      · cases hturn with
        | goesOn hpoint => exact hpoint.elim
        | deleted => exact ⟨hdeletes, .inr ⟨_, hnext _ rfl, trivial⟩⟩
      · exact hdeletes.elim
    calls := hkept
    known := by
      intro x hx
      rw [hcalls] at hx
      rcases mem_or_mem_of_replaced hx with hold | hnew
      · exact .inr ⟨hold, fun _ _ =>
          ⟨fun _ => elim, fun row hrow _ => (newChild_of_inserts hknown hrow).2⟩⟩
      · exact .inl (ht ▸ hturn.known h hcall x (mem_toList.1 hnew))
    stored := fun row hrow _ hgated hstored => by
      subst ht
      exact hturn.stored hknown hrow hgated hstored
    carried := by
      intro row hrow hchild hplaceholder _ _ hbefore
      subst ht
      rcases hturn.carried h hrow hchild hplaceholder hbefore with ⟨y, hy, hcarries⟩ |
        ⟨x, hx, hne, hcarries⟩
      · exact ⟨y, hnext y hy, hcarries⟩
      · exact ⟨x, (hkept x hx).resolve_left hne, hcarries⟩
    restamped := by
      rintro x rfl name hrestamps
      subst ht
      exact (hturn.restamps hrestamps).imp_left fun ⟨y, hy, hrestamps⟩ => ⟨y, hnext y hy, hrestamps⟩
    swapped := by
      rintro x rfl jobId hswaps
      subst ht
      exact (hturn.swaps hswaps).imp_left fun ⟨y, hy, hswaps⟩ => ⟨y, hnext y hy, hswaps⟩
    given := by
      intro jobId name hminted _
      subst ht
      exact (hturn.mints hminted).imp_right fun ⟨y, hy, hswaps⟩ => ⟨y, hnext y hy, hswaps⟩
    drives := by
      rintro hheld x hx rfl hdrives
      subst ht
      exact (hturn.drives h hm hcall hstamped hheld hdrives).imp_right fun ⟨y, hy, hdrives⟩ =>
        ⟨y, hnext y hy, hdrives⟩ }
  exact h.move hmove

/-! ### Steps -/

/-- The hooks of the ends of jobs are run one after the other. -/
theorem path_hooks {c₀ : κ} (events : List DispatchEvent) (s : DispatchState κ) :
    (dispatchSystem d c₀).Path anyStep s { s with calls := s.calls ++ hooks c events } := by
  induction events generalizing s with
  | nil =>
    rw [show hooks c [] = [] from rfl, append_nil]
    exact .refl
  | cons e events ih =>
    cases e with
    | dispatched jobId mat => exact ih s
    | finished jobId jobName status =>
      have hstep : (dispatchSystem d c₀).step s (.runWaveSchedulerHook c jobId status) =
          some (s.addCall (.wave c (.readBase jobId status))) := rfl
      have hrest := (System.Path.refl.tail trivial hstep).trans
        (ih (s.addCall (.wave c (.readBase jobId status))))
      simpa [addCall, hooks] using hrest

theorem path_onJobStatus {c₀ : κ} {status : ExecutionJobStatus} {known : Bool}
    (h : s.reportable d jobId jobName status) :
    (dispatchSystem d c₀).Path anyStep s (s.onJobStatus c jobId jobName status known) := by
  have hstep : (dispatchSystem d c₀).step s (.onJobStatus jobId jobName status) =
      some (s.writeStatus jobId jobName status) := if_pos h
  have hreport : (dispatchSystem d c₀).Path anyStep s (s.writeStatus jobId jobName status) :=
    .tail .refl trivial hstep
  rw [onJobStatus]
  split
  · exact hreport.trans
      (path_hooks [.finished jobId jobName status] (s.writeStatus jobId jobName status))
  · exact hreport.trans (path_hooks (c := c) [] (s.writeStatus jobId jobName status))

/-- A step of the release is made of steps of the dispatch. -/
theorem path_of_releaseStep {c₀ : κ} {a : ReleaseAction κ} (h : s.releaseStep d base a = some t) :
    (dispatchSystem d c₀).Path anyStep s t := by
  cases a with
  | onJobStatus c jobId jobName status known =>
    obtain ⟨hchild, heq⟩ := ite_none_right_eq_some.1 h
    cases heq
    refine path_onJobStatus ?_
    simp only [hasChild, and_eq_true, decide_eq_true_eq] at hchild
    rw [reportable, hchild.1.1]
    simp
  | next k answer =>
    obtain ⟨call, hcall, h⟩ := bind_eq_some_iff.1 h
    obtain ⟨⟨u, rest⟩, hnext, heq⟩ := bind_eq_some_iff.1 h
    cases heq
    have hstep : (dispatchSystem d c₀).step s (.next k answer) =
        some { u with calls := u.calls.take k ++ rest.toList ++ u.calls.drop (k + 1) } :=
      bind_eq_some_iff.2 ⟨call, hcall, bind_eq_some_iff.2 ⟨_, hnext, rfl⟩⟩
    exact (System.Path.refl.tail trivial hstep).trans (path_hooks ..)
  | reject k jobId known =>
    simp only [releaseStep] at h
    split at h
    · next c jobName wave pending hcall =>
      obtain ⟨hresolves, heq⟩ := ite_none_right_eq_some.1 h
      cases heq
      have hnext : s.callNext d (.ready c jobName wave (.dispatch pending)) .no =
          some (s, wave.map fun release => .wave c (.restamp release)) := rfl
      have hstep : (dispatchSystem d c₀).step s (.next k .no) = some { s with
          calls := s.calls.take k ++
            (wave.map fun release => PipelineCall.wave c (.restamp release)).toList ++
            s.calls.drop (k + 1) } :=
        bind_eq_some_iff.2 ⟨_, hcall, bind_eq_some_iff.2 ⟨_, hnext, rfl⟩⟩
      refine (System.Path.refl.tail trivial hstep).trans (path_onJobStatus ?_)
      rcases placeholder_or_unminted_of_resolvesTo hresolves with ⟨row, hrow, rfl, -⟩ | ⟨-, -, hnone⟩
      · have hsome := lookup_of_mem hrow
        simp [reportable, hsome]
      · simp only [reportable, hnone, or_eq_true, decide_eq_true_eq]
        exact .inr (.inr (by decide))
    · cases h

/-- What is dispatched is sound. -/
theorem sound_of_reachable {c₀ : κ} (h : (dispatchSystem d c₀).Reachable anyStep s) : s.Sound :=
  h.invariant (fun _ hs => Set.mem_singleton_iff.1 hs ▸ sound_init) fun _ _ _ hs _ hstep => hs.step hstep

/-- A step that does not lose the wave keeps what holds of it. -/
theorem WaveRuns.step {a : ReleaseAction κ} (h : WaveRuns d base m s) (hm : 0 < m)
    (hok : KeepsReleases d s a)
    (hstep : s.releaseStep d base a = some t) (hsound : t.Sound) : WaveRuns d base m t := by
  cases a with
  | onJobStatus c jobId jobName status known =>
    obtain ⟨hchild, heq⟩ := ite_none_right_eq_some.1 hstep
    cases heq
    exact h.report hchild (hok.registered c jobId jobName status known rfl) rfl hsound
  | next k answer =>
    obtain ⟨call, hcall, hstep⟩ := bind_eq_some_iff.1 hstep
    obtain ⟨⟨u, next⟩, hnext, heq⟩ := bind_eq_some_iff.1 hstep
    have hturn := turn_of_callNext hok hcall (h.calls call (mem_of_getElem? hcall)) hnext
    have hhooks : hooks call.coordinator (u.log.drop s.log.length) = [] := by
      rcases hturn.log with hlog | ⟨jobId, mat, hlog⟩
      · rw [hlog, drop_length]
        rfl
      · rw [hlog, drop_left]
        rfl
    dsimp only at heq
    rw [hhooks, append_nil] at heq
    cases heq
    refine h.turn hm hcall hturn (fun c jobId status hread => ?_) rfl hsound
    exact hok.stamped k answer c jobId status rfl (hread ▸ hcall)
  | reject k jobId known =>
    simp only [releaseStep] at hstep
    split at hstep
    · next c jobName wave pending hcall =>
      obtain ⟨hresolves, heq⟩ := ite_none_right_eq_some.1 hstep
      cases heq
      exact h.reject hcall hresolves rfl hsound
    · cases hstep

end

end DispatchState

section
variable {κ : Type} [DecidableEq κ] {s : DispatchState κ} {d : DispatchRun} {base : JsString} {m : ℕ}

/-- In the runs in which the end of a child comes after its row, its hook after the columns of the
fan-out, and a child that is released is handed to the dispatcher, a child runs whose end leads to
the next release when no call is under way and some wait. -/
theorem not_stranded (hm : 0 < m) (h : (releaseSystem d base m).Reachable (KeepsReleases d) s)
    (hcalls : s.calls = []) :
    (∀ row ∈ s.db.executionJobs, row.baseJobName = some base → row.waveGated = false) ∨
      ∃ row ∈ s.db.executionJobs, row.baseJobName = some base ∧ row.status ∉ TERMINAL_JOB_STATES ∧
        row.waveGated = false ∧ ∃ mat, .dispatched row.jobId mat ∈ s.log := by
  have hruns : (∃ c, (dispatchSystem d c).Reachable anyStep s) ∧ s.WaveRuns d base m := by
    let P (s : DispatchState κ) := (∃ c, (dispatchSystem d c).Reachable anyStep s) ∧ s.WaveRuns d base m
    refine Reachable.invariant (P := P) h (fun s hs => ?_) fun s a t hs hok hstep => ?_
    · obtain ⟨⟨c, hreachable⟩, hheld⟩ := hs
      exact ⟨⟨c, hreachable⟩, waveRuns_init (sound_of_reachable hreachable) hm hheld⟩
    · obtain ⟨⟨c, hreachable⟩, hruns⟩ := hs
      have hreachable := hreachable.trans (path_of_releaseStep hstep)
      exact ⟨⟨c, hreachable⟩, hruns.step hm hok hstep (sound_of_reachable hreachable)⟩
  obtain ⟨-, hruns⟩ := hruns
  by_cases hheld : ∃ row ∈ s.db.executionJobs, row.jobName ∈ d.childrenOf base ∧ row.waveGated
  · have hnone : ∀ {P : PipelineCall κ → Prop}, ¬∃ call ∈ s.calls, P call := by
      rintro P ⟨call, hcall, -⟩
      rw [hcalls] at hcall
      cases hcall
    obtain ⟨row, hrow, hchild, hlive, hgated⟩ := (hruns.driven hheld).resolve_right hnone
    have hplaceholder : row.isPlaceholder = false := eq_false_iff.2 fun hplaceholder =>
      hnone (hruns.carried row hrow hchild hplaceholder hgated hlive)
    cases hbase : row.baseJobName with
    | none => exact absurd (hruns.restamped row hrow hchild hplaceholder hlive hbase) hnone
    | some b =>
      obtain rfl := ((hruns.rows row hrow).fits.1 b hbase).1 hchild
      exact .inr ⟨row, hrow, hbase, hlive, hgated, (hruns.given row hrow hchild hlive).2 hplaceholder⟩
  · refine .inl fun row hrow hbase => eq_false_iff.2 fun hgated => hheld ⟨row, hrow, ?_, hgated⟩
    exact ((hruns.rows row hrow).fits.1 base hbase).2 rfl

end

/-- Whether a step does not lose the wave. -/
def keepsReleases (d : DispatchRun) (s : DispatchState Bool) : ReleaseAction Bool → Bool
  | .onJobStatus _ jobId _ _ _ => s.calls.all fun call =>
    match call with
    | .ready _ _ _ (.swapDelete id) | .ready _ _ _ (.swapInsert id) => id ≠ jobId
    | _ => true
  | .next k answer =>
    match s.calls[k]?, answer with
    | some (.wave _ (.readBase jobId _)), _ =>
      s.db.executionJobs.rows.all fun row => row.jobId ≠ jobId || row.baseJobName.isSome
    | some (.wave _ (.evaluate b status)), .rows rows =>
      match d.rt.evaluateWave b status rows with
      | .skipRemaining _ => false
      | _ => true
    | some (.ready _ _ _ .hasPendingHold), .yes => false
    | some (.ready _ _ _ (.needsStatuses edges)), _ => s.db.checkEdges edges = .dispatch
    | some (.ready _ _ _ .contextGate), .no => false
    | some (.ready c jobName _ .consume), _ => (s.consume c jobName).2.all (!·.invoke)
    | some (.ready _ _ _ (.dispatch _)), .no => false
    | some (.ready _ _ _ (.swapDelete _)), .no => false
    | _, _ => true
  | .reject .. => true

theorem keepsReleases_of_test {d : DispatchRun} (s : DispatchState Bool) (a : ReleaseAction Bool)
    (h : keepsReleases d s a) : KeepsReleases d s a where
  registered c jobId jobName status known ha _ call hcall hswaps := by
    subst ha
    have hother := all_eq_true.1 h call hcall
    unfold Swaps at hswaps
    split at hswaps
    case h_1 | h_2 => exact of_decide_eq_true hother hswaps
    · exact hswaps
  stamped k answer c jobId status ha hcall _ row hrow hid hbase := by
    subst ha
    simp only [keepsReleases, hcall] at h
    have hrow := all_eq_true.1 h row hrow
    simp [hid, hbase] at hrow
  goesOn k rows c b status ha hcall jobNames heval := by
    subst ha
    simp [keepsReleases, hcall, heval] at h
  handed k answer c jobName wave point ha hcall := by
    subst ha
    cases point <;> cases answer <;> simp_all [keepsReleases, LetsThrough, Option.all_eq_true]

/-- A job that runs on three systems, one at a time. -/
def rollingRun : DispatchRun where
  rt := lowercaseFanoutRuntime
  staticJobs := [{ systemsJob "test" ["linux", "macos", "windows"] with maxParallel := some 1 }]
  run := lowercaseFanoutRuntime.materializeStaticJobsSafe (fun _ => .ok []) 100
    [{ systemsJob "test" ["linux", "macos", "windows"] with maxParallel := some 1 }]

/-- Before the dispatch on two coordinators. -/
def rollingStart : DispatchState Bool := { needs := { db := ⟨.empty _, .empty _⟩ } }

/-- The first child is dispatched, and the others are stored. -/
def registration : List (DispatchAction Bool) := [
  .static .no, .static (.accepted "l"), .static (.id "needs-pending-test (macos)-1"),
  .static (.id "needs-pending-test (windows)-1"), .static .ok, .static .ok, .static .ok,
    .static .ok, .static .ok,
  .static .ok, .static .ok, .static .ok]

/-- The first child runs, and the others wait. -/
def rollingHeld : DispatchState Bool :=
  ((dispatchSystem rollingRun true).run (fun _ _ => true) rollingStart registration).getD rollingStart

/-- The event is that a job was dispatched under an id. -/
def DispatchEvent.dispatches (jobId : String) : DispatchEvent → Bool
  | .dispatched id _ => id = jobId
  | .finished _ _ _ => false

theorem heldWave_rollingHeld : rollingHeld.HeldWave rollingRun "test" 1 where
  calls := by rfl
  children := by decide
  parallel := by decide
  alone := by decide
  minted := by decide
  registered := by decide
  held := by decide
  dispatched := by
    have hrows : ∀ row ∈ rollingHeld.db.executionJobs, row.baseJobName = some "test" →
      row.waveGated = false →
        row.isPlaceholder = false ∧ rollingHeld.log.any (·.dispatches row.jobId) := by decide
    intro row hrow hbase hgated
    obtain ⟨hplaceholder, hlog⟩ := hrows row hrow hbase hgated
    obtain ⟨e, he, hid⟩ := any_eq_true.1 hlog
    cases e with
    | dispatched jobId mat =>
      obtain rfl : jobId = row.jobId := of_decide_eq_true hid
      exact ⟨hplaceholder, fun _ => ⟨_, he, mat, rfl⟩⟩
    | finished _ _ _ => cases hid
  full := by decide

theorem rollingHeld_mem_init : rollingHeld ∈ (releaseSystem rollingRun "test" 1).init := by
  have hsome : ((dispatchSystem rollingRun true).run (fun _ _ => true)
    rollingStart registration).isSome := by
    decide
  obtain ⟨t, ht⟩ := isSome_iff_exists.1 hsome
  have hheld : rollingHeld = t := by
    rw [rollingHeld, ht]
    rfl
  exact ⟨⟨true, rollingStart, rfl, hheld ▸ path_of_run anyStep_of_true ht⟩, heldWave_rollingHeld⟩

/-- The hook of the first child releases the second one, whose row takes the place of its
placeholder. -/
def releaseSecond : List (ReleaseAction Bool) := [
  .onJobStatus true "l" "test (linux)" .success false, .next 0 .ok,
  .next 0 (.rows ((rollingHeld.onJobStatus true "l" "test (linux)" .success false).db.childrenOf
    "test")),
  .next 0 .ok, .next 0 .no, .next 0 .ok, .next 0 .ok, .next 0 .yes, .next 0 .ok, .next 0 (.accepted "m"),
  .next 0 .ok, .next 0 .ok]

/-- A run in which the second child runs, and the third one waits. -/
theorem not_stranded_released : ∃ s : DispatchState Bool, s.calls = [] ∧
    (∃ row ∈ s.db.executionJobs, row.baseJobName = some "test" ∧ row.waveGated) ∧
    ((∀ row ∈ s.db.executionJobs, row.baseJobName = some "test" → row.waveGated = false) ∨
      ∃ row ∈ s.db.executionJobs, row.baseJobName = some "test" ∧ row.status ∉ TERMINAL_JOB_STATES ∧
        row.waveGated = false ∧ ∃ mat, .dispatched row.jobId mat ∈ s.log) := by
  obtain ⟨s, hpath, hs⟩ : ∃ s, (releaseSystem rollingRun "test" 1).Path (KeepsReleases rollingRun)
    rollingHeld s ∧
      (s.calls.isEmpty && s.db.executionJobs.rows.any fun row =>
        row.baseJobName = some (js "test") && row.waveGated) :=
    exists_path_of_run keepsReleases_of_test (releaseSecond ++ [.next 0 .ok, .next 0 .ok]) (by decide)
  obtain ⟨hcalls, hheld⟩ := and_eq_true_iff.1 hs
  have hcalls : s.calls = [] := List.isEmpty_iff.1 hcalls
  obtain ⟨row, hrow, hwaits⟩ := any_eq_true.1 hheld
  simp only [and_eq_true, decide_eq_true_eq] at hwaits
  exact ⟨s, hcalls, ⟨row, hrow, hwaits⟩,
    not_stranded one_pos ⟨rollingHeld, rollingHeld_mem_init, hpath⟩ hcalls⟩

/-- A run in which the second child ends on another coordinator before the columns of the fan-out are
written, and the third one waits for good. -/
theorem exists_stranded : ∃ s : DispatchState Bool,
    (releaseSystem rollingRun "test" 1).Reachable anyStep s ∧ s.calls = [] ∧
      ¬((∀ row ∈ s.db.executionJobs, row.baseJobName = some "test" → row.waveGated = false) ∨
        ∃ row ∈ s.db.executionJobs, row.baseJobName = some "test" ∧ row.status ∉ TERMINAL_JOB_STATES ∧
          row.waveGated = false) := by
  obtain ⟨s, hpath, hs⟩ := (releaseSystem rollingRun "test" 1).exists_path rollingHeld
      (fun s => s.calls.isEmpty &&
        (s.db.executionJobs.rows.any fun row => row.baseJobName = some (js "test") &&
        row.waveGated) && s.db.executionJobs.rows.all fun row =>
          row.waveGated || row.status ∈ TERMINAL_JOB_STATES)
    anyStep_of_true
      (releaseSecond ++ [ReleaseAction.onJobStatus false "m" "test (macos)" .success false,
        .next 1 .ok, .next 0 .ok, .next 0 .ok])
      (by decide)
  simp only [and_eq_true, List.isEmpty_iff] at hs
  obtain ⟨⟨hcalls, hheld⟩, hended⟩ := hs
  obtain ⟨row, hrow, hwaits⟩ := any_eq_true.1 hheld
  simp only [and_eq_true, decide_eq_true_eq] at hwaits
  refine ⟨s, ⟨rollingHeld, rollingHeld_mem_init, hpath⟩, hcalls, ?_⟩
  rintro (hnone | ⟨r, hr, -, hlive, hungated⟩)
  · rw [hnone row hrow hwaits.1] at hwaits
    exact Bool.false_ne_true hwaits.2
  · have hr := all_eq_true.1 hended r hr
    simp [hungated, hlive] at hr

end Kici
