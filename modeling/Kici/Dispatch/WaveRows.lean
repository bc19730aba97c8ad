import Kici.Dispatch.Rows

/-!
# The rows of a fan-out

The children of a fan-out of which at most `m` may run at a time: the plan holds all but `m` of
them (`mem_firstChildren`), their rows have the job they are children of and its policy (`Fits`),
and once they are registered, no statement makes one wait, or takes it out of the fan-out before
it is dispatched (`WaveRowsKept`).
-/

namespace Kici

open List Option RunDb Table

/-! ## The plan -/

namespace FanoutRuntime

variable {rt : FanoutRuntime} {plan : WavePlan} {children mats : List MaterializedJob}
  {base name : JsString} {mat : MaterializedJob} {policy : WavePolicy} {m : ℕ}

/-- The children that the plan does not hold. -/
def firstChildren (rt : FanoutRuntime) (m : ℕ) (children : List MaterializedJob) : List JsString :=
  if children.length ≤ 1 then children.map (·.expandedName)
  else ((rt.sortChildren children).take m).map (·.expandedName)

theorem length_firstChildren_le (rt : FanoutRuntime) (children : List MaterializedJob) (hm : 1 ≤ m) :
    (rt.firstChildren m children).length ≤ m := by
  rw [firstChildren]
  split
  · next hone => simpa using hone.trans hm
  · simp

theorem held_planChildren (h : name ∈ plan.held) : name ∈ (rt.planChildren plan children).held := by
  rw [planChildren]
  split
  · exact h
  · split
    · exact h
    · exact mem_append_left _ h

theorem held_foldl {groups : List (List MaterializedJob)} (h : name ∈ plan.held) :
    name ∈ (groups.foldl rt.planChildren plan).held := by
  induction groups generalizing plan with
  | nil => exact h
  | cons group groups ih => exact ih (held_planChildren h)

/-- The plan holds the children of a job but for the first ones. -/
theorem mem_firstChildren_of_planChildren
    (hparallel : ∀ child ∈ children, child.lockJob.maxParallel = some m)
    (hmem : mat ∈ children) (hheld : mat.expandedName ∉ (rt.planChildren plan children).held) :
    mat.expandedName ∈ rt.firstChildren m children := by
  have hhead : children.head?.bind (·.lockJob.maxParallel) = some m := by
    cases children with
    | nil => cases hmem
    | cons child children => exact hparallel child mem_cons_self
  rw [planChildren, hhead] at hheld
  rw [firstChildren]
  split
  · exact mem_map_of_mem hmem
  · next hseveral =>
    simp only [if_neg hseveral] at hheld
    have hsorted : mat ∈ rt.sortChildren children := (mem_insertionSort _).2 hmem
    rw [← take_append_drop m (rt.sortChildren children), mem_append] at hsorted
    refine mem_map_of_mem (hsorted.resolve_right fun hdrop => hheld ?_)
    exact mem_append_right _ (mem_map_of_mem hdrop)

theorem mem_firstChildren (hparallel : ∀ mat ∈ mats, mat.baseName = base →
    mat.lockJob.maxParallel = some m)
    (hmem : mat ∈ mats) (hbase : mat.baseName = base)
    (hheld : mat.expandedName ∉ (rt.computeWavePlan mats).held) :
    mat.expandedName ∈ rt.firstChildren m (mats.filter (·.baseName = base)) := by
  have hgroup : mats.filter (·.baseName = base) ∈
      (mats.map (·.baseName)).eraseDups.map fun baseName => mats.filter (·.baseName = baseName) := by
    refine mem_map.2 ⟨base, ?_, rfl⟩
    exact mem_eraseDups.2 (hbase ▸ mem_map_of_mem hmem)
  obtain ⟨before, after, hsplit⟩ := append_of_mem hgroup
  rw [computeWavePlan, hsplit, foldl_append, foldl_cons] at hheld
  refine mem_firstChildren_of_planChildren (fun child hchild => ?_)
    (mem_filter.2 ⟨hmem, decide_eq_true hbase⟩)
    fun h => hheld (held_foldl h)
  obtain ⟨hchild, hbase⟩ := mem_filter.1 hchild
  exact hparallel child hchild (of_decide_eq_true hbase)

theorem get_foldl_set {ordered : List MaterializedJob} {policies : JsObject WavePolicy} {p : WavePolicy}
    (h : (ordered.foldl (fun policies mat => policies.set mat.expandedName p) policies).get name =
      some policy) :
    policies.get name = some policy ∨ policy = p ∧ ∃ mat ∈ ordered, mat.expandedName = name := by
  induction ordered generalizing policies with
  | nil => exact .inl h
  | cons mat ordered ih =>
    rcases ih h with h | ⟨rfl, mat', hmem, hname⟩
    · rw [JsObject.get_set] at h
      split at h
      · next hname => exact .inr ⟨(some.inj h).symm, mat, mem_cons_self, hname.symm⟩
      · exact .inl h
    · exact .inr ⟨rfl, mat', mem_cons_of_mem _ hmem, hname⟩

theorem policy_planChildren (h : (rt.planChildren plan children).policy.get name = some policy) :
    plan.policy.get name = some policy ∨
      children.head?.bind (·.lockJob.maxParallel) = some policy.maxParallel ∧
        ∃ mat ∈ children, mat.expandedName = name := by
  rw [planChildren] at h
  split at h
  · exact .inl h
  · next maxParallel hhead =>
    split at h
    · exact .inl h
    · rcases get_foldl_set h with h | ⟨rfl, mat, hmem, hname⟩
      · exact .inl h
      · exact .inr ⟨hhead, mat, (mem_insertionSort _).1 hmem, hname⟩

/-- The plan has the policy of a job for each of its children, if their names are their own. -/
theorem policy_computeWavePlan (hnames : (mats.map (·.expandedName)).Nodup)
    (hparallel : ∀ mat ∈ mats, mat.baseName = base → mat.lockJob.maxParallel = some m)
    (hmem : mat ∈ mats) (hbase : mat.baseName = base)
    (h : (rt.computeWavePlan mats).policy.get mat.expandedName = some policy) :
    policy.maxParallel = m := by
  have hfold : ∀ (bases : List JsString) (plan : WavePlan),
      ((bases.map fun baseName => mats.filter (·.baseName = baseName)).foldl rt.planChildren
        plan).policy.get
        mat.expandedName = some policy → plan.policy.get mat.expandedName = some policy ∨
          policy.maxParallel = m := by
    intro bases
    induction bases with
    | nil => exact fun plan h => .inl h
    | cons baseName bases ih =>
      intro plan h
      rcases ih _ h with h | h
      · rcases policy_planChildren h with h | ⟨hhead, mat', hmem', hname⟩
        · exact .inl h
        -- The job of the name is the child, so the children are those of its job.
        · obtain ⟨hmem', hbase'⟩ := mem_filter.1 hmem'
          obtain rfl := inj_on_of_nodup_map hnames hmem' hmem hname
          obtain ⟨child, hchild, hparallel'⟩ := bind_eq_some_iff.1 hhead
          obtain ⟨hchild, hbase''⟩ := mem_filter.1 (mem_of_mem_head? hchild)
          have hsame : child.baseName = base :=
            (of_decide_eq_true hbase'').trans ((of_decide_eq_true hbase').symm.trans hbase)
          exact .inr (some.inj (hparallel'.symm.trans (hparallel child hchild hsame)))
      · exact .inr h
  exact (hfold _ _ h).resolve_left fun h => absurd (JsObject.get_eq_some.1 h) not_mem_nil

end FanoutRuntime

/-! ## Rows that fit -/

namespace DispatchRun

variable (d : DispatchRun) (base : JsString) (m : ℕ)

/-- A row is in the fan-out if it is that of one of the children, and has no other policy then. -/
def Fits (row : ExecutionJob) : Prop :=
  (∀ b, row.baseJobName = some b → (row.jobName ∈ d.childrenOf base ↔ b = base)) ∧
    (row.jobName ∈ d.childrenOf base → ∀ k, row.waveMaxParallel = some k → k = m)

/-- A release is of one of the children, with the policy, if it is one of the fan-out. -/
def FitsRelease (release : WaveRelease) : Prop :=
  (release.jobName ∈ d.childrenOf base ↔ release.baseJobName = base) ∧
    (release.baseJobName = base → release.maxParallel = m)

/-- A row that says nothing about the fan-out. -/
def Plain (row : ExecutionJob) : Prop :=
  row.waveGated = false ∧ row.baseJobName ≠ some base ∧ (row.jobName ∈ d.childrenOf base →
    row.baseJobName = none ∧ row.variantLabel = none ∧ row.waveMaxParallel = none)

variable {d base m} {row r : ExecutionJob} {mat : MaterializedJob}

theorem mem_childrenOf (hmem : mat ∈ d.run.materializedJobs) (hbase : mat.baseName = base) :
    mat.expandedName ∈ d.childrenOf base :=
  mem_map_of_mem (mem_filter.2 ⟨hmem, decide_eq_true hbase⟩)

/-- A job that has the name of a child is the child, if names are not shared. -/
theorem baseName_of_mem_childrenOf (hnames : d.names.Nodup) (hmem : mat ∈ d.run.materializedJobs)
    (h : mat.expandedName ∈ d.childrenOf base) : mat.baseName = base := by
  obtain ⟨child, hchild, hname⟩ := mem_map.1 h
  obtain ⟨hchild, hbase⟩ := mem_filter.1 hchild
  obtain rfl := inj_on_of_nodup_map hnames hchild hmem hname
  exact of_decide_eq_true hbase

theorem Plain.fits (h : d.Plain base row) : d.Fits base m row := by
  refine ⟨fun b hb => ⟨fun hmem => ?_, ?_⟩, fun hmem k hk => ?_⟩
  · rw [(h.2.2 hmem).1] at hb
    cases hb
  · rintro rfl
    exact absurd hb h.2.1
  · rw [(h.2.2 hmem).2.2] at hk
    cases hk

theorem plain_pendingRow (jobName : JsString) (jobId : String) :
    d.Plain base { pendingRow jobName with jobId } :=
  ⟨rfl, some_ne_none _ ∘ Eq.symm, fun _ => ⟨rfl, rfl, rfl⟩⟩

/-- Whether a row fits depends on its name, its job and its policy only. -/
theorem Fits.congr (h : d.Fits base m r) (hname : row.jobName = r.jobName)
    (hbase : row.baseJobName = r.baseJobName) (hpolicy : row.waveMaxParallel = r.waveMaxParallel) :
    d.Fits base m row := by
  rw [Fits, hname, hbase, hpolicy]
  exact h

theorem baseJobName_trackedRow {b : JsString} (h : (trackedRow mat).baseJobName = some b) :
    b = mat.baseName := by
  have hcolumn : ∀ {text : JsString}, column text = some b → b = text := by
    intro text htext
    rw [column] at htext
    split at htext
    · cases htext
    · exact (some.inj htext).symm
  rw [trackedRow, variantTrackingFields] at h
  split at h
  · cases h
  · exact hcolumn h
  · exact hcolumn h

theorem waveMaxParallel_trackedRow : (trackedRow mat).waveMaxParallel = none := by
  rw [trackedRow, variantTrackingFields]
  split <;> rfl

/-- The row of a job of the run fits. -/
theorem fits_trackedRow (hnames : d.names.Nodup) (hmem : mat ∈ d.run.materializedJobs) :
    d.Fits base m (trackedRow mat) := by
  refine ⟨fun b hb => ?_, fun _ k hk => ?_⟩
  · rw [baseJobName_trackedRow hb, trackedRow_jobName]
    exact ⟨baseName_of_mem_childrenOf hnames hmem, mem_childrenOf hmem⟩
  · rw [waveMaxParallel_trackedRow] at hk
    cases hk

section

variable (hnames : d.names.Nodup)
  (hparallel : ∀ mat ∈ d.run.materializedJobs, mat.baseName = base → mat.lockJob.maxParallel = some m)
include hnames hparallel

/-- So does its row with the policy that the plan has for it. -/
theorem fits_wavePolicyFields
    (hmem : mat ∈ d.run.materializedJobs) :
    d.Fits base m (wavePolicyFields (d.rt.computeWavePlan d.run.materializedJobs) mat.expandedName
      (trackedRow mat)) := by
  have hrow : d.Fits base m (trackedRow mat) := fits_trackedRow hnames hmem
  rw [wavePolicyFields]
  split
  · exact hrow
  · next policy hpolicy =>
    refine ⟨hrow.1, fun hchild k hk => ?_⟩
    have hchild : mat.expandedName ∈ d.childrenOf base := trackedRow_jobName mat ▸ hchild
    have hbase := baseName_of_mem_childrenOf hnames hmem hchild
    exact (some.inj hk) ▸ FanoutRuntime.policy_computeWavePlan hnames hparallel hmem hbase hpolicy

/-- What is done with the jobs of the run leads to rows that fit. -/
theorem fits_staticTasks {data : JsObject JobEnvData} {peers : Bool} :
    ∀ task ∈ staticTasks d.rt data peers d.run, d.Fits base m task.row := by
  have hpending : ∀ jobName, d.Fits base m (pendingRow jobName) := fun jobName =>
    (plain_pendingRow jobName "").fits
  intro task htask
  rw [staticTasks, mem_append, mem_append] at htask
  rcases htask with (htask | htask) | htask
  · obtain ⟨mat, hmat, rfl⟩ := mem_map.1 htask
    exact fits_trackedRow hnames (mem_filter.1 hmat).1
  · split at htask
    · simp only [clusterTasks, mem_append] at htask
      rcases htask with ((htask | htask) | htask) | htask <;> obtain ⟨mat, hmat, rfl⟩ := mem_map.1 htask
      · exact fits_trackedRow hnames (mem_filter.1 hmat).1
      · exact fits_trackedRow hnames (mem_filter.1 (mem_filter.1 hmat).1).1
      · exact hpending _
      · exact hpending _
    · obtain ⟨mat, hmem, hmat⟩ := mem_filterMap.1 htask
      have htracked : d.Fits base m (trackedRow mat) := fits_trackedRow hnames hmem
      have hpolicy := fits_wavePolicyFields hnames hparallel hmem
      rw [singleOrchTask] at hmat
      split at hmat
      · cases hmat
      split at hmat
      · cases hmat
      split at hmat
      · cases hmat
        exact htracked
      split at hmat
      · cases hmat
        exact htracked
      split at hmat
      · cases hmat
        exact htracked
      split at hmat
      · cases hmat
        exact hpolicy.congr rfl rfl rfl
      · cases hmat
        exact hpolicy
  · obtain ⟨failure, -, rfl⟩ := mem_map.1 htask
    exact hpending _

end

end DispatchRun

/-! ## Rows that are kept -/

/-- A row of the fan-out stays one, and starts waiting neither for another child nor within the
fan-out. -/
structure RowKept (base : JsString) (r row : ExecutionJob) : Prop where
  jobName : row.jobName = r.jobName
  waveLabel : r.baseJobName = some base → waveLabel row = waveLabel r
  gated : row.waveGated = true → r.waveGated = true
  stays : r.baseJobName = some base → row.baseJobName = some base
  joins : row.waveGated = true → row.baseJobName = some base → r.baseJobName = some base

/-- A row whose columns of the fan-out stay as they are, but that it may wait no longer. -/
theorem rowKept_of_columns {base : JsString} {r row : ExecutionJob} (hname : row.jobName = r.jobName)
    (hlabel : row.variantLabel = r.variantLabel) (hbase : row.baseJobName = r.baseJobName)
    (hgated : row.waveGated → r.waveGated) : RowKept base r row where
  jobName := hname
  waveLabel _ := by rw [waveLabel, waveLabel, hlabel, hname]
  gated := hgated
  stays h := hbase.trans h
  joins _ h := hbase ▸ h

theorem RowKept.refl (base : JsString) (r : ExecutionJob) : RowKept base r r :=
  rowKept_of_columns rfl rfl rfl id

theorem RowKept.of_unmarked {base : JsString} {r row : ExecutionJob} (h : r.unmarked = row.unmarked) :
    RowKept base r row := by
  have hsame {α : Type} := ExecutionJob.eq_of_unmarked (α := α) h
  exact rowKept_of_columns (hsame _ fun _ => rfl) (hsame _ fun _ => rfl) (hsame _ fun _ => rfl)
    (hsame (·.waveGated) (fun _ => rfl) ▸ id)

namespace DispatchState

variable {κ : Type} {s t : DispatchState κ} {d : DispatchRun} {base name : JsString} {m : ℕ}
  {row : ExecutionJob} {release : WaveRelease} {e : Effect} {jobId : String}

/-- A job of the name was dispatched or is over. -/
def Started (s : DispatchState κ) (name : JsString) : Prop :=
  (∃ jobId mat, .dispatched jobId mat ∈ s.log ∧ mat.expandedName = name) ∨
    ∃ jobId status, .finished jobId name status ∈ s.log

theorem Started.mono (h : s.Started name) (hlog : s.log <+: t.log) : t.Started name :=
  h.imp (fun ⟨jobId, mat, hmem, hname⟩ => ⟨jobId, mat, hlog.subset hmem, hname⟩)
    fun ⟨jobId, status, hmem⟩ => ⟨jobId, status, hlog.subset hmem⟩

/-- The child of a name does not wait for another one. -/
def Ungated (s : DispatchState κ) (name : JsString) : Prop :=
  ∀ row ∈ s.db.executionJobs, row.jobName = name → row.waveGated = false

/-- A release makes the child wait no longer. -/
theorem ungated_ungate (hdb : t.db = s.db.ungate name) : t.Ungated name := by
  intro row hrow hname
  rw [hdb] at hrow
  obtain ⟨r, -, rfl⟩ := mem_map.1 hrow
  rw [Update.apply] at hname ⊢
  split
  · rfl
  · next hnot =>
    rw [if_neg hnot] at hname
    exact absurd (decide_eq_true hname) hnot

/-- The rows of the fan-out stay its rows, but for those of jobs that started, and none starts
waiting. -/
structure WaveRowsKept (base : JsString) (s t : DispatchState κ) : Prop where
  stays : ∀ r ∈ s.db.executionJobs, r.baseJobName = some base → ¬t.Started r.jobName →
    ∃ row ∈ t.db.executionJobs, RowKept base r row
  comes : ∀ row ∈ t.db.executionJobs, row.waveGated = true → ∃ r ∈ s.db.executionJobs, RowKept base r row

/-- What the effect of a statement may be, once the children are registered (`registered`): rows
that are registered say nothing about the fan-out, releases fit, and a placeholder is deleted
of a job that started. -/
def FitsWave (s : DispatchState κ) (d : DispatchRun) (base : JsString) (m : ℕ) (registered : Prop) :
    Effect → Prop
  | .register row => s.Registers row ∧ d.Fits base m row ∧ (registered → d.Plain base row)
  | .restamp release =>
    d.FitsRelease base m release ∧ (release.baseJobName = base → s.Ungated release.jobName)
  | .delete name => s.Started name
  | _ => True

theorem waveRowsKept_of_rows (hdb : t.db.executionJobs = s.db.executionJobs) :
    WaveRowsKept base s t where
  stays r hr _ _ := ⟨r, hdb ▸ hr, .refl ..⟩
  comes row hrow _ := ⟨row, hdb ▸ hrow, .refl ..⟩

theorem waveRowsKept_sameJobs (h : s.db.SameJobs t.db) : WaveRowsKept base s t where
  stays r hr _ _ := by
    obtain ⟨row, hrow, heq⟩ := h.symm.exists_mem hr
    exact ⟨row, hrow, .of_unmarked heq.symm⟩
  comes row hrow _ := by
    obtain ⟨r, hr, heq⟩ := h.exists_mem hrow
    exact ⟨r, hr, .of_unmarked heq⟩

theorem waveRowsKept_update {u : Update ExecutionJob.jobId}
    (h : ∀ r ∈ s.db.executionJobs, u.guard r → RowKept base r (u.set r))
    (hdb : t.db.executionJobs = (s.db.update u).executionJobs) : WaveRowsKept base s t := by
  have hkept : ∀ r ∈ s.db.executionJobs, RowKept base r (u.apply r) := by
    intro r hr
    rw [Update.apply]
    split
    · next hg => exact h r hr hg
    · exact .refl ..
  refine ⟨fun r hr _ _ => ⟨u.apply r, hdb ▸ mem_map_of_mem hr, hkept r hr⟩, fun row hrow _ => ?_⟩
  rw [hdb] at hrow
  obtain ⟨r, hr, rfl⟩ := mem_map.1 hrow
  exact ⟨r, hr, hkept r hr⟩

/-- A row that waits for nothing is inserted. -/
theorem waveRowsKept_insertNew {new : ExecutionJob} (hnew : new.waveGated = false)
    (hdb : t.db.executionJobs = s.db.executionJobs.insertNew new) : WaveRowsKept base s t where
  stays r hr _ _ := ⟨r, hdb ▸ mem_insertNew_of_mem hr new, .refl ..⟩
  comes row hrow hgated := by
    rw [hdb] at hrow
    rcases mem_insertNew hrow with hold | rfl
    · exact ⟨row, hold, .refl ..⟩
    · rw [hnew] at hgated
      cases hgated

/-- A row that says nothing about the fan-out is registered. -/
theorem waveRowsKept_register (hsound : s.RowsSound) (hfits : ∀ r ∈ s.db.executionJobs, d.Fits base m r)
    (hregisters : s.Registers row) (hplain : d.Plain base row) (hdb : t.db = s.db.insertTracked row) :
    WaveRowsKept base s t := by
  have hrows := congrArg executionJobs hdb
  rw [insertTracked] at hrows
  split at hrows
  · exact waveRowsKept_insertNew hplain.1 hrows
  · refine waveRowsKept_update (fun r hr hguard => ?_) hrows
    have hname : row.jobName = r.jobName :=
      (hsound.named r hr _ (of_decide_eq_true hguard ▸ hregisters.1)).symm
    -- A row of the fan-out is that of a child, about which the new row says nothing.
    have hnothing : r.baseJobName = some base → row.baseJobName = none ∧ row.variantLabel = none := by
      intro hbase
      have hchild := ((hfits r hr).1 base hbase).2 rfl
      exact ⟨(hplain.2.2 (hname ▸ hchild)).1, (hplain.2.2 (hname ▸ hchild)).2.1⟩
    refine ⟨hname, fun hbase => ?_, fun hgated => ?_, fun hbase => ?_, fun _ hbase => ?_⟩
    · simp [waveLabel, (hnothing hbase).2, hname]
    · simpa [hplain.1] using hgated
    · simp [(hnothing hbase).1, hbase]
    · rcases or_eq_some_iff.1 hbase with hnew | ⟨-, hold⟩
      · exact absurd hnew hplain.2.1
      · exact hold

theorem waveRowsKept_restamp (hfits : ∀ r ∈ s.db.executionJobs, d.Fits base m r)
    (hrelease : d.FitsRelease base m release)
    (hungated : release.baseJobName = base → s.Ungated release.jobName)
    (hdb : t.db = s.db.restamp release) : WaveRowsKept base s t := by
  refine waveRowsKept_update (fun r hr hguard => ?_) (congrArg executionJobs hdb)
  have hname : r.jobName = release.jobName := of_decide_eq_true hguard
  refine ⟨rfl, fun _ => rfl, id, fun hbase => ?_, fun hgated hbase => ?_⟩
  · have hchild := ((hfits r hr).1 base hbase).2 rfl
    exact congrArg some (hrelease.1.1 (hname ▸ hchild))
  · have hfalse := hungated (some.inj hbase) r hr hname
    rw [show r.waveGated from hgated] at hfalse
    cases hfalse

theorem waveRowsKept_delete (hstarted : s.Started name) (hdb : t.db = (s.deleteSynthetic name).db)
    (hlog : t.log = s.log) : WaveRowsKept base s t := by
  have hrows := congrArg executionJobs hdb
  rw [deleteSynthetic] at hrows
  split at hrows
  · exact waveRowsKept_of_rows hrows
  · next jobId hid =>
    obtain ⟨placeholder, hfind, rfl⟩ := map_eq_some_iff.1 hid
    have hname : placeholder.jobName = name := by
      have hfound := find?_some hfind
      exact of_decide_eq_true (Bool.and_eq_true_iff.1 hfound).1
    have hmem : placeholder ∈ s.db.executionJobs := mem_of_find?_eq_some hfind
    refine ⟨fun r hr _ hnot => ⟨r, ?_, .refl ..⟩, fun row hrow _ => ⟨row, ?_, .refl ..⟩⟩
    · rw [hrows]
      refine mem_delete.2 ⟨hr, fun heq => hnot ?_⟩
      have hsame : r = placeholder :=
        some.inj ((lookup_of_mem hr).symm.trans (heq ▸ lookup_of_mem hmem))
      exact hsame ▸ hname ▸ hstarted.mono (hlog ▸ prefix_rfl)
    · rw [hrows] at hrow
      exact (mem_delete.1 hrow).1

/-- Once the children are registered, every effect keeps the rows of the fan-out. -/
theorem Executes.waveRowsKept (he : s.Executes d t e) (hsound : s.RowsSound)
    (hfits : ∀ r ∈ s.db.executionJobs, d.Fits base m r) (heffect : s.FitsWave d base m True e) :
    WaveRowsKept base s t := by
  cases he with
  | marks hjobs _ _ => exact waveRowsKept_sameJobs hjobs
  | mint _ hdb _ _ | hand _ hdb _ _ => exact waveRowsKept_of_rows (congrArg executionJobs hdb)
  | register hdb _ _ =>
    exact waveRowsKept_register hsound hfits heffect.1 (heffect.2.2 trivial) hdb
  | ungate hdb _ _ =>
    refine waveRowsKept_update (fun r _ _ => ?_) (congrArg executionJobs hdb)
    exact rowKept_of_columns rfl rfl rfl fun h => absurd h Bool.false_ne_true
  | restamp hdb _ _ => exact waveRowsKept_restamp hfits heffect.1 heffect.2 hdb
  | status _ hdb _ _ =>
    have hrows := congrArg executionJobs hdb
    rw [RunDb.writeStatus] at hrows
    split at hrows
    · exact waveRowsKept_update (fun r _ _ => rowKept_of_columns rfl rfl rfl id) hrows
    · exact waveRowsKept_insertNew rfl hrows
  | delete hdb _ hlog => exact waveRowsKept_delete heffect hdb hlog

theorem fits_insertTracked (hsound : s.RowsSound) (hfits : ∀ r ∈ s.db.executionJobs, d.Fits base m r)
    (hregisters : s.Registers row) (hrow : d.Fits base m row) :
    ∀ r ∈ (s.db.insertTracked row).executionJobs, d.Fits base m r := by
  rw [insertTracked]
  split
  · intro r hr
    rcases mem_insertNew hr with hold | rfl
    · exact hfits r hold
    · exact hrow
  · refine forall_mem_execute hfits fun r hr hguard hr' => ?_
    have hname : r.jobName = row.jobName := hsound.named r hr _ (of_decide_eq_true hguard ▸ hregisters.1)
    rw [DispatchRun.Fits, hname] at hr'
    refine ⟨fun b hb => ?_, fun hchild k hk => ?_⟩
    · rcases or_eq_some_iff.1 hb with hnew | ⟨-, hold⟩
      · exact hrow.1 b hnew
      · exact hr'.1 b hold
    · rcases or_eq_some_iff.1 hk with hnew | ⟨-, hold⟩
      · exact hrow.2 hchild k hnew
      · exact hr'.2 hchild k hold

/-- Every effect leaves rows that fit. -/
theorem Executes.fits (he : s.Executes d t e) (hsound : s.RowsSound)
    (hfits : ∀ r ∈ s.db.executionJobs, d.Fits base m r) {registered : Prop}
    (heffect : s.FitsWave d base m registered e) : ∀ row ∈ t.db.executionJobs, d.Fits base m row := by
  cases he with
  | marks hjobs _ _ =>
    intro row hrow
    obtain ⟨r, hr, heq⟩ := hjobs.exists_mem hrow
    have hsame {α : Type} := ExecutionJob.eq_of_unmarked (α := α) heq
    exact (hfits r hr).congr (hsame _ fun _ => rfl) (hsame _ fun _ => rfl) (hsame _ fun _ => rfl)
  | mint _ hdb _ _ | hand _ hdb _ _ => exact hdb ▸ hfits
  | register hdb _ _ => exact hdb ▸ fits_insertTracked hsound hfits heffect.1 heffect.2.1
  | ungate hdb _ _ =>
    exact hdb ▸ forall_mem_execute hfits fun r _ _ hr => hr.congr rfl rfl rfl
  | restamp hdb _ _ =>
    refine hdb ▸ forall_mem_execute hfits fun r _ hguard _ => ?_
    obtain ⟨hchild, hparallel⟩ := heffect.1
    have hname : r.jobName = _ := of_decide_eq_true hguard
    refine ⟨fun b hb => ?_, fun hmem k hk => ?_⟩
    · rw [← some.inj hb]
      exact hname ▸ hchild
    · rw [← some.inj hk]
      exact hparallel (hchild.1 (hname ▸ hmem))
  | status _ hdb _ _ =>
    rw [hdb]
    intro row hrow
    rcases mem_db_writeStatus hrow with hr | ⟨r, hr, -, -, rfl⟩ | ⟨-, rfl⟩
    · exact hfits row hr
    · exact (hfits r hr).congr rfl rfl rfl
    · exact ⟨fun b hb => absurd hb (some_ne_none b).symm, fun _ k hk => absurd hk (some_ne_none k).symm⟩
  | delete hdb _ _ =>
    intro row hrow
    rw [hdb, deleteSynthetic] at hrow
    split at hrow
    · exact hfits row hrow
    · exact hfits row (mem_delete.1 hrow).1

end DispatchState

end Kici
