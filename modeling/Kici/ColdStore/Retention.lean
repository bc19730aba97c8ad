import Kici.ColdStore.PurgeSteps

/-!
# No chunk is purged early

In a session in UTC, every row that a chunk was made of is in its data object until its own time has
passed, whatever cycles and sweeps do and wherever they stop (`retention_kept`). A sweep deletes the
row of the index last, so a chunk of which anything is left is in the index. It is on the list of
the next sweep, which can finish it wherever the last one stopped (`exists_path_purged`). No row is
lost or archived twice (`row_in_one_place`).
-/

namespace Kici.ColdStore

open List Option System PurgeState

variable {candidate : ChunkIndexRow} {rest : List ChunkIndexRow} {partition : Partition}
variable {Row : Type}

/-- A sweep has come to an end with the chunk. -/
def PurgeState.Records (s : PurgeState Row) (a : PurgeAction Row) (row : ChunkIndexRow) : Prop :=
  ∃ j candidate rest, a = .purge j ∧ s.sweeps[j]? = some ⟨candidate :: rest, .recording⟩ ∧
    candidate.key = row.key

structure RetentionKept [DecidableEq Row] (host : PurgeHost Row) (s : PurgeState Row) : Prop where
  /-- An archived row is in its data object, or its own time has passed. -/
  kept : ∀ c ∈ s.committed, ∀ row ∈ c.chunk.rows,
    (∃ body, s.data c.target.dataKey = some body ∧ row ∈ body) ∨
    (host.retentionOf row).HasPassed c.archivedAt s.now
  /-- A chunk with a bucket is in the index as long as anything is left of it. -/
  indexed : ∀ c ∈ s.committed, ∀ row ∈ c.indexRow, row ∈ s.index ∨ s.Gone row
  /-- It leaves the index only at the end of its purge. -/
  leaves : ∀ a t, s.step host a = some t → ∀ row ∈ s.index, row ∈ t.index ∨ s.Records a row
  /-- What a sweep is about to delete belongs to the chunk that it purges, and to no other. -/
  unshared : ∀ sweep ∈ s.sweeps, ∀ candidate rest, sweep = ⟨candidate :: rest, .deletingData⟩ →
    (∀ row ∈ s.index, row.objectKey = candidate.objectKey → row.key = candidate.key) ∧
      ∀ manifest, s.manifests (manifestKeyOf candidate.objectKey) = some manifest →
        manifest.table = candidate.table ∧ manifest.tenantId = candidate.tenantId ∧
          manifest.partitionDate = candidate.partitionDate ∧ manifest.chunkId = candidate.chunkId
  /-- A chunk of the index whose time is over can be purged. -/
  finishes : ∀ row ∈ s.index, row.maxColdDays.isOver host.addDays row.archivedAt s.now = true →
    s.locked row = false →
    ∃ t, (purgeSystem host).Path anyStep s t ∧ row ∉ t.index ∧ t.Gone row

variable {host : PurgeHost Row} {names : Set ChunkName} {s t : PurgeState Row}

/-! ## Runs -/

variable {a : PurgeAction Row} {chunk : PartitionChunk Row}

section
variable [DecidableEq Row] {row : ChunkIndexRow}

theorem purgeSound_init (h : s ∈ (purgeSystem host).init) : PurgeSound host names s := by
  obtain ⟨hrows, hknown, hindex, hdata, hmanifests, harchiving, hsweeps, hcommitted⟩ := h
  refine ⟨?_, ?_, fun p archiving harch => ?_, ?_, ?_, ?_, ?_, fun key manifest hmanifest => ?_⟩
  · rw [hknown]
    exact nofun
  · rw [hrows]
    exact nofun
  · rw [harchiving] at harch
    cases harch
  · rw [hcommitted]
    exact nofun
  · rw [hcommitted]
    exact nofun
  · rw [hindex]
    exact nofun
  · rw [hsweeps]
    exact nofun
  · rw [hmanifests] at hmanifest
    cases hmanifest

theorem purgeSound_step (hnames : NamesApart host names) (h : PurgeSound host names s)
    (hwithin : a.Within host names) (hstep : s.step host a = some t) : PurgeSound host names t := by
  cases a with
  | elapse microseconds =>
    cases hstep
    exact h.quiet rfl rfl rfl rfl rfl rfl (Int.le_add_of_nonneg_right (Int.natCast_nonneg _))
      h.archiving h.sweeps
  | insert row => exact purgeSound_insert h hstep
  | select partition rows => exact purgeSound_select h hwithin hstep
  | archive partition => exact purgeSound_archive hnames h hstep
  | skipChunk partition =>
    obtain ⟨archiving, harch, rfl⟩ := map_eq_some_iff.1 hstep
    refine h.goOn fun archiving' harchiving => ?_
    cases harchiving
    exact (h.archiving partition archiving harch).tail
  | endArchive partition =>
    cases hstep
    exact h.goOn nofun
  | list tableFilter bucketFilter limit =>
    cases hstep
    refine h.quiet rfl rfl rfl rfl rfl rfl (le_refl _) h.archiving fun sweep hsweep => ?_
    rcases mem_append.1 hsweep with hold | hnew
    · exact h.sweeps sweep hold
    · rw [mem_singleton.1 hnew]
      exact sweepSound_list h tableFilter bucketFilter limit
  | purge j =>
    obtain ⟨⟨candidates, stage⟩, hsweep, hstep⟩ := bind_eq_some_iff.1 hstep
    cases candidates with
    | nil => cases hstep
    | cons candidate rest =>
      cases hstep
      exact purgeSound_purge hnames h hsweep
  | skipCandidate j =>
    obtain ⟨sweep, hsweep, rfl⟩ := map_eq_some_iff.1 hstep
    exact h.sweepOn ((h.sweeps sweep (mem_of_getElem? hsweep)).beginning fun _ => mem_of_mem_tail)
  | endSweep j =>
    cases hstep
    exact h.sweepOn ⟨nofun, nofun,
      nofun⟩

theorem mem_index_archiveStep {rest : List (PartitionChunk Row)}
    {stage : WriteStage} (hrow : row ∈ s.index) :
    row ∈ (s.archiveStep host partition chunk rest stage).index := by
  cases stage with
  | encoding | verifying =>
    rw [archiveStep]
    split
    · exact hrow
    · exact hrow
  | puttingData | puttingManifest => exact hrow
  | committing target =>
    rw [archiveStep, commit]
    split
    · exact hrow
    · split
      · exact hrow
      · exact Table.mem_insertNew_of_mem hrow _

/-- A chunk leaves the index only at the end of its purge. -/
theorem mem_index_or_records (hstep : s.step host a = some t)
    (hrow : row ∈ s.index) : row ∈ t.index ∨ s.Records a row := by
  cases a with
  | elapse | endArchive | list | endSweep =>
    cases hstep
    exact .inl hrow
  | insert row' =>
    rw [PurgeState.step, ite_none_right_eq_some] at hstep
    obtain ⟨-, hstep⟩ := hstep
    cases hstep
    exact .inl hrow
  | select partition rows =>
    rw [PurgeState.step, ite_none_right_eq_some] at hstep
    obtain ⟨-, hstep⟩ := hstep
    split at hstep
    · cases hstep
      exact .inl hrow
    · cases hstep
      exact .inl hrow
  | archive partition =>
    left
    obtain ⟨⟨todo, stage⟩, -, rfl⟩ := map_eq_some_iff.1 hstep
    cases todo with
    | nil => exact hrow
    | cons chunk rest => exact mem_index_archiveStep hrow
  | skipChunk partition =>
    obtain ⟨archiving, -, rfl⟩ := map_eq_some_iff.1 hstep
    exact .inl hrow
  | purge j =>
    obtain ⟨⟨candidates, stage⟩, hsweep, hstep⟩ := bind_eq_some_iff.1 hstep
    cases candidates with
    | nil => cases hstep
    | cons candidate rest =>
      cases hstep
      cases stage with
      | beginning =>
        rw [purgeStep]
        split
        · exact .inl hrow
        · exact .inl hrow
      | deletingData => exact .inl hrow
      | deletingManifest => exact .inl hrow
      | recording =>
        by_cases hkey : row.key = candidate.key
        · exact .inr ⟨j, candidate, rest, rfl, hsweep, hkey.symm⟩
        · exact .inl (Table.mem_delete.2 ⟨hrow, hkey⟩)
  | skipCandidate j =>
    obtain ⟨sweep, -, rfl⟩ := map_eq_some_iff.1 hstep
    exact .inl hrow

/-! ## A sweep that goes through -/

/-- A sweep leaves candidates out. -/
theorem path_skip {j : ℕ} {before rest : List ChunkIndexRow}
    (hsweep : s.sweeps[j]? = some ⟨before ++ rest, .beginning⟩) :
    (purgeSystem host).Path anyStep s (s.sweepOn j rest .beginning) := by
  have hj : j < s.sweeps.length := (List.getElem?_eq_some_iff.1 hsweep).1
  induction before generalizing s with
  | nil =>
    have hsame : s.sweepOn j rest .beginning = s := by
      rw [sweepOn]
      obtain ⟨hlt, heq⟩ := List.getElem?_eq_some_iff.1 hsweep
      rw [← nil_append rest, ← heq, set_getElem_self]
    rw [hsame]
    exact .refl
  | cons candidate before ih =>
    have hstep : (purgeSystem host).step s (.skipCandidate j) = some
      (s.sweepOn j (before ++ rest) .beginning) := by
      rw [purgeSystem]
      simp only [PurgeState.step, hsweep, map_some]
      rfl
    have hagain : (s.sweepOn j (before ++ rest) .beginning).sweepOn j rest .beginning =
        s.sweepOn j rest .beginning := by
      simp only [sweepOn, set_set]
    rw [← hagain]
    refine (System.Path.refl.tail trivial hstep).trans (ih (getElem?_sweepOn hj) ?_)
    rw [sweepOn, length_set]
    exact hj

theorem step_purge {j : ℕ} {stage : PurgeStage}
    (hsweep : s.sweeps[j]? = some ⟨candidate :: rest, stage⟩) :
    (purgeSystem host).step s (.purge j) = some (s.purgeStep host j candidate rest stage) := by
  rw [purgeSystem]
  simp only [PurgeState.step, hsweep, bind_some]

/-- A sweep that comes to a chunk purges it, if nothing keeps it from it. -/
theorem path_purge {j : ℕ}
    (hsweep : s.sweeps[j]? = some ⟨candidate :: rest, .beginning⟩)
    (hpurges : (host.coldTtlDays candidate.table).isSome) (hfree : s.locked candidate = false) :
    ∃ t, (purgeSystem host).Path anyStep s t ∧ candidate ∉ t.index ∧ t.Gone candidate := by
  have hj : j < s.sweeps.length := (List.getElem?_eq_some_iff.1 hsweep).1
  have hbegin : s.purgeStep host j candidate rest .beginning = s.sweepOn j (candidate :: rest)
    .deletingData := by
    rw [purgeStep, hfree, Bool.or_false, if_neg]
    rw [isNone_iff_eq_none]
    exact isSome_iff_ne_none.1 hpurges
  -- The states after each of the four steps.
  let s₁ := s.sweepOn j (candidate :: rest) .deletingData
  let s₂ := s₁.purgeStep host j candidate rest .deletingData
  let s₃ := s₂.purgeStep host j candidate rest .deletingManifest
  let s₄ := s₃.purgeStep host j candidate rest .recording
  have hlength : s₁.sweeps.length = s.sweeps.length ∧ s₂.sweeps.length = s.sweeps.length := by
    constructor
    · exact length_set
    · exact length_set.trans length_set
  have hat₁ : s₁.sweeps[j]? = some ⟨candidate :: rest, .deletingData⟩ := getElem?_sweepOn hj
  have hat₂ : s₂.sweeps[j]? = some ⟨candidate :: rest, .deletingManifest⟩ :=
    getElem?_set_self (hlength.1 ▸ hj)
  have hat₃ : s₃.sweeps[j]? = some ⟨candidate :: rest, .recording⟩ := getElem?_set_self (hlength.2 ▸ hj)
  have hpath₁ : (purgeSystem host).Path anyStep s s₁ :=
    System.Path.refl.tail trivial (hbegin ▸ step_purge hsweep)
  have hpath₂ := hpath₁.tail trivial (step_purge hat₁)
  have hpath₃ := hpath₂.tail trivial (step_purge hat₂)
  refine ⟨s₄, hpath₃.tail trivial (step_purge hat₃), fun hmem => ?_, ?_, Function.update_self ..⟩
  · exact (Table.mem_delete.1 hmem).2 rfl
  · exact Function.update_self ..

/-- A chunk of the index whose time is over is found by the next sweep, which can purge it. -/
theorem exists_path_purged (h : PurgeSound host names s) (hrow : row ∈ s.index)
    (hover : row.maxColdDays.isOver host.addDays row.archivedAt s.now) (hfree : s.locked row = false) :
    ∃ t, (purgeSystem host).Path anyStep s t ∧ row ∉ t.index ∧ t.Gone row := by
  have hlisted : row ∈ s.listPurgeableChunks host none none s.index.rows.length := by
    rw [listPurgeableChunks, take_of_length_le]
    · refine (perm_insertionSort _ _).mem_iff.2 (mem_filter.2 ⟨hrow, ?_⟩)
      rw [hover]
      rfl
    · rw [(perm_insertionSort _ _).length_eq]
      exact length_filter_le _ _
  obtain ⟨before, rest, hsplit⟩ := append_of_mem hlisted
  let s₁ : PurgeState Row := { s with sweeps := s.sweeps ++ [⟨before ++ row :: rest, .beginning⟩] }
  have hstep : (purgeSystem host).step s (.list none none s.index.rows.length) = some s₁ := by
    rw [purgeSystem]
    simp only [PurgeState.step, hsplit]
    rfl
  have hat : s₁.sweeps[s.sweeps.length]? = some ⟨before ++ row :: rest, .beginning⟩ :=
    getElem?_concat_length
  have hlt : s.sweeps.length < s₁.sweeps.length := (List.getElem?_eq_some_iff.1 hat).1
  have hskip : (purgeSystem host).Path anyStep s₁
    (s₁.sweepOn s.sweeps.length (row :: rest) .beginning) :=
    path_skip hat
  -- The new sweep has no lock yet.
  have hfree' : (s₁.sweepOn s.sweeps.length (row :: rest) .beginning).locked row = false := by
    rw [locked, List.any_eq_false] at hfree ⊢
    intro sweep hsweep
    rcases mem_or_eq_of_mem_set hsweep with hold | rfl
    · rcases mem_append.1 hold with hold | hnew
      · exact hfree sweep hold
      · rw [mem_singleton.1 hnew]
        exact Bool.false_ne_true
    · exact Bool.false_ne_true
  have hpurges : (host.coldTtlDays row.table).isSome := by
    obtain ⟨c, hc, hindexRow⟩ := h.index row hrow
    obtain ⟨retention, hretention, -⟩ := map_eq_some_iff.1 hindexRow
    rw [(indexRow_eq_some hindexRow).1]
    exact (h.committed c hc).chunk.purges (by rw [hretention]; rfl)
  obtain ⟨t, hpath, hgone⟩ := path_purge (getElem?_sweepOn hlt) hpurges hfree'
  exact ⟨t, ((System.Path.refl.tail trivial hstep).trans hskip).trans hpath, hgone⟩

/-! ## No chunk is purged early -/

/-- Whatever cycles and sweeps do, and wherever they stop, in UTC: an archived row is kept until its own
time has passed, a chunk of which anything is left is in the index and can be purged when its time
is over, and a sweep deletes nothing that belongs to another chunk. -/
theorem retention_kept (hutc : UtcSession host.addDays) (hnames : NamesApart host names)
    (h : (purgeSystem host).Reachable (fun _ a => a.Within host names) s) : RetentionKept host s := by
  have hsound : PurgeSound host names s :=
    h.invariant (fun _ => purgeSound_init) fun _ _ _ hs hwithin hstep =>
      purgeSound_step hnames hs hwithin hstep
  refine ⟨fun c hc row hrow => ?_, fun c hc => (hsound.committed c hc).indexed,
    fun a t hstep row hrow => mem_index_or_records hstep hrow, fun sweep hsweep candidate rest heq => ?_,
    fun row hrow hover hfree => exists_path_purged hsound hrow hover hfree⟩
  · have hcommitted := hsound.committed c hc
    rcases hcommitted.kept with hdata | hover
    · exact .inl ⟨_, hdata, hrow⟩
    · exact .inr ((hasPassed_of_isOver hutc hover).of_atLeast (hcommitted.chunk.atLeast row hrow))
  · have hcandidate := (hsound.sweeps sweep hsweep).candidates candidate (heq ▸ mem_cons_self)
    exact unshared_of_sound hnames hsound hcandidate.1

/-! ## No row is lost -/

/-- Each row that was inserted is in Postgres, or in a chunk that was committed. -/
def PurgeState.Accounted (s : PurgeState Row) : Prop :=
  ∀ row ∈ s.known, row ∈ s.rows ∨ ∃ c ∈ s.committed, row ∈ c.chunk.rows

/-- The rows that leave Postgres are those of the chunk that is committed. -/
theorem accounted_commit {target : ChunkTarget}
    (h : s.Accounted) (hcommit : s.commit partition chunk target = some t) : t.Accounted := by
  have hnow : Accounted { s with
      rows := s.rows.filter (· ∉ chunk.rows)
      committed := s.committed ++ [⟨partition, chunk, target, s.now⟩] } := by
    intro row hrow
    by_cases hchunk : row ∈ chunk.rows
    · exact .inr ⟨_, mem_append_right _ (mem_singleton_self _), hchunk⟩
    · exact (h row hrow).imp (fun hin => mem_filter.2 ⟨hin, decide_eq_true hchunk⟩)
        fun ⟨c, hc, hin⟩ => ⟨c, mem_append_left _ hc, hin⟩
  rw [commit] at hcommit
  split at hcommit
  · cases hcommit
    exact hnow
  · split at hcommit <;> cases hcommit
    exact hnow

theorem accounted_step (h : s.Accounted) (hstep : s.step host a = some t) : t.Accounted := by
  cases a with
  | elapse | endArchive | list | endSweep =>
    cases hstep
    exact h
  | insert new =>
    obtain ⟨-, ⟨⟩⟩ := ite_none_right_eq_some.1 hstep
    intro row hrow
    rcases mem_append.1 hrow with hold | hnew
    · exact (h row hold).imp_left (mem_append_left _)
    · exact .inl (mem_append_right _ hnew)
  | select =>
    obtain ⟨-, hstep⟩ := ite_none_right_eq_some.1 hstep
    split at hstep <;> cases hstep <;> exact h
  | skipChunk | skipCandidate =>
    obtain ⟨_, -, rfl⟩ := map_eq_some_iff.1 hstep
    exact h
  | purge =>
    obtain ⟨⟨candidates, stage⟩, -, hstep⟩ := bind_eq_some_iff.1 hstep
    cases candidates <;> cases hstep
    rw [purgeStep.eq_def]
    split
    · split <;> exact h
    all_goals exact h
  | archive =>
    obtain ⟨⟨todo, stage⟩, -, rfl⟩ := map_eq_some_iff.1 hstep
    cases todo with
    | nil => exact h
    | cons =>
      dsimp only
      rw [archiveStep.eq_def]
      split
      case h_5 =>
        cases hcommit : s.commit _ _ _ with
        | none => exact h
        | some u => exact accounted_commit (t := u) h hcommit
      case h_1 | h_3 => split <;> exact h
      all_goals exact h

/-- Wherever cycles and sweeps stop: a row is in Postgres and in no chunk, or it has left, and is in
one chunk only. -/
theorem row_in_one_place (hnames : NamesApart host names)
    (h : (purgeSystem host).Reachable (fun _ a => a.Within host names) s) {row : Row}
    (hrow : row ∈ s.known) : (row ∈ s.rows ∧ ∀ c ∈ s.committed, row ∉ c.chunk.rows) ∨
      row ∉ s.rows ∧ ∃! c, c ∈ s.committed ∧ row ∈ c.chunk.rows := by
  obtain ⟨hsound, haccounted⟩ := h.invariant (P := fun s => PurgeSound host names s ∧ s.Accounted)
    (fun _ hs => ⟨purgeSound_init hs, fun _ hrow => absurd (hs.2.1 ▸ hrow) not_mem_nil⟩)
    fun _ _ _ hs hwithin hstep => ⟨purgeSound_step hnames hs.1 hwithin hstep, accounted_step hs.2 hstep⟩
  have hgone := fun c hc => (hsound.committed c hc).gone row
  rcases haccounted row hrow with hin | ⟨c, hc, hin⟩
  · exact .inl ⟨hin, fun c hc hchunk => hgone c hc hchunk hin⟩
  · exact .inr ⟨hgone c hc hin, c, ⟨hc, hin⟩, fun c' hc' => hsound.apart c' hc'.1 c hc row hc'.2 hin⟩

end

/-! ## A run -/

/-- Two rows of a day that are kept for a week and for a month. -/
inductive AuditRow
  | forAWeek
  | forAMonth
  deriving DecidableEq

def auditPartition : Partition := ⟨js "access_log", js "acme", js "2026-01-02"⟩

def auditHost : PurgeHost AuditRow where
  keyPrefix := js "cold"
  db := .orchestrator
  sha256 _ := js "4758a748489f4fd273954d29180914e8e819f21117ba4c38b9435dce173f8b7f"
  numberText _ := js "0"
  addDays archivedAt days := archivedAt + dayInterval days
  adapter :=
    { rowId := fun row => .text (match row with | .forAWeek => js "a" | .forAMonth => js "b")
      rowTimestamp := fun _ => 0 }
  partition _ := auditPartition
  coldTtlDays _ := some fun row => .days (match row with | .forAWeek => 7 | .forAMonth => 30)

/-- Postgres, the index and the bucket of objects are empty. -/
def emptyStore : PurgeState AuditRow where
  now := 0
  rows := []
  index := .empty _
  data _ := none
  manifests _ := none
  archiving _ := none
  known := []

/-- The name of the chunk of both rows. -/
def auditName : ChunkName := ⟨auditPartition, .text (js "a"), .text (js "b")⟩

/-- The rows are archived. A sweep after eight days finds nothing, and one after 32 days stops when
it has deleted the data object. -/
def stoppedPurge : List (PurgeAction AuditRow) :=
  [.insert .forAWeek, .insert .forAMonth, .select auditPartition [.forAWeek, .forAMonth]] ++
    List.replicate 5 (.archive auditPartition) ++
    [.elapse (8 * 86400000000), .list none none 1000, .elapse (24 * 86400000000),
      .list none none 1000, .purge 1, .purge 1, .skipCandidate 1]

/-- The chunks of a cycle have the name. -/
def PurgeAction.makesOnly {Row : Type} (host : PurgeHost Row) (name : ChunkName) : PurgeAction Row → Bool
  | .select partition rows =>
    match host.partitionChunks partition rows with
    | .ok chunks => chunks.all (host.nameOf partition · = name)
    | .error _ => true
  | _ => true

theorem within_of_makesOnly {name : ChunkName} (h : a.makesOnly host name) :
    a.Within host {name} := by
  cases a with
  | select partition rows =>
    intro chunks hchunks chunk hchunk
    rw [PurgeAction.makesOnly, hchunks, List.all_eq_true] at h
    exact of_decide_eq_true (h chunk hchunk)
  | _ => trivial

theorem namesApart_auditHost : NamesApart auditHost {auditName} where
  injOn := Set.injOn_singleton _ _
  table name hname := by
    rw [Set.mem_singleton_iff.1 hname]
    decide
  sha256 _ := (by decide : ChunkKeyArgs.slash ∉
    js "4758a748489f4fd273954d29180914e8e819f21117ba4c38b9435dce173f8b7f")

/-- The run of the purge that stops. -/
theorem exists_stopped : ∃ s, (purgeSystem auditHost).Path (fun _ a => a.Within auditHost {auditName})
    emptyStore s ∧
    (∃ c ∈ s.committed, s.data c.target.dataKey = none ∧ s.index.rows.length = 1) ∧
    AuditRow.forAWeek ∈ s.known ∧ s.rows = [] :=
  (purgeSystem auditHost).exists_path emptyStore _ (fun _ _ h => within_of_makesOnly h) stoppedPurge
    (by decide +kernel :
      ((purgeSystem auditHost).run (fun _ a => a.makesOnly auditHost auditName) _ _).any _)

theorem retention_kept_stopped : ∃ s : PurgeState AuditRow, RetentionKept auditHost s ∧
    ∃ c ∈ s.committed, s.data c.target.dataKey = none ∧ s.index.rows.length = 1 := by
  obtain ⟨s, hpath, hgone, -⟩ := exists_stopped
  exact ⟨s, retention_kept (fun _ _ => rfl) namesApart_auditHost
    ⟨emptyStore, ⟨rfl, rfl, rfl, rfl, rfl, rfl, rfl, rfl⟩, hpath⟩, hgone⟩

/-- A purge has stopped; its row has left Postgres, and is in one chunk. -/
theorem row_in_one_place_stopped : ∃ s : PurgeState AuditRow, s.rows = [] ∧
    ∃! c, c ∈ s.committed ∧ .forAWeek ∈ c.chunk.rows := by
  obtain ⟨s, hpath, -, hknown, hrows⟩ := exists_stopped
  have hplace := row_in_one_place namesApart_auditHost
    ⟨emptyStore, ⟨rfl, rfl, rfl, rfl, rfl, rfl, rfl, rfl⟩, hpath⟩
    hknown
  exact ⟨s, hrows, (hplace.resolve_left fun h => by simp [hrows] at h).2⟩

end Kici.ColdStore
