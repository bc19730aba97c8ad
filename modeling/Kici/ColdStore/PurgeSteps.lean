import Kici.ColdStore.PurgeInvariant

/-!
# Cycles and sweeps keep what is stored

A cycle puts objects at keys of its own (`purgeSound_archive`), and a sweep deletes those of a chunk
whose time has passed, and its row of the index last (`purgeSound_purge`).
-/

namespace Kici.ColdStore

open Function List Option PurgeState Table

variable {manifests : JsString → Option RetentionManifest}
variable {Row : Type} {host : PurgeHost Row} {names : Set ChunkName} {s t : PurgeState Row}
  {candidate : ChunkIndexRow} {candidates : List ChunkIndexRow} {partition : Partition}
    {stage : PurgeStage}

/-! ## Cycles -/

/-- The chunks of a cycle are its rows, and are kept for as long as each of theirs. -/
theorem partitionChunks_spec {rows : List Row} {chunks : List (PartitionChunk Row)}
    (h : host.partitionChunks partition rows = .ok chunks)
    (hrows : ∀ row ∈ rows, host.partition row = partition) :
    (chunks.flatMap (·.rows)).Perm rows ∧ ∀ chunk ∈ chunks,
      (∀ row ∈ chunk.rows, chunk.kept.AtLeast (host.retentionOf row)) ∧
        (∀ retention ∈ chunk.retention, retention.bucket ≠ []) ∧
          (chunk.retention.isSome → (host.coldTtlDays partition.table).isSome) := by
  rw [PurgeHost.partitionChunks.eq_def] at h
  split at h
  next coldTtlDays htable =>
    obtain ⟨entries, hentries, h⟩ := bind_eq_ok h
    cases h
    obtain ⟨hperm, hcovers⟩ := bufferRows_spec hentries
    have hflat : (entries.map BucketRows.chunk).flatMap (·.rows) = entries.flatMap (·.rows) := by
      rw [flatMap_map]
      rfl
    rw [hflat]
    refine ⟨hperm, fun chunk hchunk => ?_⟩
    obtain ⟨entry, hentry, rfl⟩ := List.mem_map.1 hchunk
    refine ⟨fun row hrow => ?_, fun retention hretention => ?_, fun _ => by rw [htable]; rfl⟩
    · have hmem : row ∈ rows := hperm.mem_iff.1 (mem_flatMap.2 ⟨entry, hentry, hrow⟩)
      rw [PurgeHost.retentionOf, hrows row hmem, htable]
      exact (hcovers entry hentry).atLeast row hrow
    · cases hretention
      exact (hcovers entry hentry).bucket
  · split at h
    · cases h
      exact ⟨.refl _, nofun⟩
    next first rest =>
      cases h
      refine ⟨?_, fun chunk hchunk => ?_⟩
      · rw [flatMap_singleton]
        exact .refl _
      · rw [mem_singleton.1 hchunk]
        exact ⟨fun _ _ => trivial, nofun, nofun⟩

variable {next : Option (Archiving Row)}

/-- Who has the lock of a partition when it is taken, or given back. -/
theorem archiving_goOn {partition p : Partition} {archiving : Archiving Row}
    (h : (s.goOn partition next).archiving p = some archiving) :
    p = partition ∧ next = some archiving ∨ p ≠ partition ∧ s.archiving p = some archiving := by
  have hupdate : update s.archiving partition next p = some archiving := h
  by_cases hp : p = partition
  · rw [hp, update_self] at hupdate
    exact .inl ⟨hp, hupdate⟩
  · rw [update_of_ne hp] at hupdate
    exact .inr ⟨hp, hupdate⟩

/-- A cycle goes on, and nothing else changes. -/
theorem PurgeSound.goOn (h : PurgeSound host names s)
    (hnext : ∀ archiving ∈ next, ArchivingSound host names s partition archiving) :
    PurgeSound host names (s.goOn partition next) := by
  refine h.quiet rfl rfl rfl rfl rfl rfl (le_refl _) (fun p archiving harchiving => ?_) h.sweeps
  rcases archiving_goOn harchiving with ⟨rfl, heq⟩ | ⟨-, hold⟩
  · exact hnext archiving heq
  · exact h.archiving p archiving hold

variable {data : JsString → Option (List Row)}

/-- Objects are put that are not those of a committed chunk. -/
theorem PurgeSound.objects (h : PurgeSound host names s)
    (hdata : ∀ c ∈ s.committed, data c.target.dataKey = s.data c.target.dataKey)
    (hmanifest : ∀ c ∈ s.committed, manifests c.target.manifestKey = s.manifests c.target.manifestKey)
    (harchiving : ∀ partition archiving, s.archiving partition = some archiving → ∀ chunk rest,
      archiving.todo = chunk :: rest → ∀ target, host.targetOf partition chunk = .ok target →
        s.data target.dataKey = some chunk.rows → data target.dataKey = some chunk.rows)
    (hmanifests : ∀ key manifest, manifests key = some manifest → ∃ partition chunk target,
      WellNamed host names partition chunk ∧ host.targetOf partition chunk = .ok target ∧
        manifest = manifestFor partition chunk target ∧ target.manifestKey = key) :
    PurgeSound host names { s with data, manifests } := by
  have hkeys : ∀ {row : ChunkIndexRow} {c : CommittedChunk Row}, c ∈ s.committed →
    c.indexRow = some row →
      data row.objectKey = s.data row.objectKey ∧
        manifests (manifestKeyOf row.objectKey) = s.manifests (manifestKeyOf row.objectKey) := by
    intro row c hc hrow
    rw [(indexRow_eq_some hrow).2.2.2.2.1, manifestKeyOf_dataKey (h.committed c hc).target]
    exact ⟨hdata c hc, hmanifest c hc⟩
  refine ⟨h.keys, h.rows, fun p archiving harch => ?_, fun c hc => ?_, h.apart, h.index,
    fun sweep hsweep => ?_, hmanifests⟩
  · exact (h.archiving p archiving harch).mono (fun row hrow => hrow)
      (h.archiving p archiving harch).fresh
      (harchiving p archiving harch)
  · refine (h.committed c hc).mono (fun row hrow => hrow) (fun _ _ hgone => hgone) (le_refl _)
      (fun hput => .inl ?_)
      fun row hrow hindexed => hindexed.imp_right fun hgone => ?_
    · exact (hdata c hc).trans hput
    · obtain ⟨hdataRow, hmanifestRow⟩ := hkeys hc hrow
      exact ⟨hdataRow.trans hgone.1, hmanifestRow.trans hgone.2⟩
  · refine (h.sweeps sweep hsweep).mono (fun c hc => hc) (le_refl _) (fun candidate hmem hgone => ?_)
      fun candidate hmem hgone => ?_
    · obtain ⟨⟨c, hc, hrow⟩, -⟩ := (h.sweeps sweep hsweep).candidates candidate hmem
      exact (hkeys hc hrow).1.trans hgone
    · obtain ⟨⟨c, hc, hrow⟩, -⟩ := (h.sweeps sweep hsweep).candidates candidate hmem
      exact (hkeys hc hrow).2.trans hgone

theorem ArchivingSound.setStage {chunk : PartitionChunk Row}
    {rest : List (PartitionChunk Row)} {stage stage' : WriteStage}
    (h : ArchivingSound host names s partition ⟨chunk :: rest, stage⟩)
    (hstage : stage'.Sound host s partition chunk) :
    ArchivingSound host names s partition ⟨chunk :: rest, stage'⟩ := by
  refine ⟨h.nodup, h.chunks, h.fresh, fun chunk' rest' htodo => ?_⟩
  cases htodo
  exact hstage

/-- Objects are deleted, but for those of cycles, and those of chunks whose time has not passed. -/
theorem PurgeSound.erase (h : PurgeSound host names s)
    (hdata : ∀ key, s.data key = none → data key = none)
    (hmanifests : ∀ key manifest, manifests key = some manifest → s.manifests key = some manifest)
    (hkept : ∀ c ∈ s.committed, data c.target.dataKey = s.data c.target.dataKey ∨
      c.chunk.kept.isOver host.addDays c.archivedAt s.now)
    (harchiving : ∀ partition archiving, s.archiving partition = some archiving → ∀ chunk rest,
      archiving.todo = chunk :: rest → ∀ target, host.targetOf partition chunk = .ok target →
        data target.dataKey = s.data target.dataKey) :
    PurgeSound host names { s with data, manifests } := by
  have hnone : ∀ key, s.manifests key = none → manifests key = none := by
    intro key hkey
    cases hmanifest : manifests key with
    | none => rfl
    | some manifest =>
      rw [hmanifests key manifest hmanifest] at hkey
      cases hkey
  refine ⟨h.keys, h.rows, fun p archiving harch => ?_, fun c hc => ?_, h.apart, h.index,
    fun sweep hsweep => ?_,
    fun key manifest hmanifest => h.manifests key manifest (hmanifests key manifest hmanifest)⟩
  · exact (h.archiving p archiving harch).mono (fun row hrow => hrow)
      (h.archiving p archiving harch).fresh
      fun chunk rest htodo target htarget hput =>
        (harchiving p archiving harch chunk rest htodo target htarget).trans hput
  · refine (h.committed c hc).mono (fun row hrow => hrow) (fun _ _ hgone => hgone) (le_refl _)
      (fun hput => ?_)
      fun row _ hindexed => hindexed.imp_right fun hgone => ⟨hdata _ hgone.1, hnone _ hgone.2⟩
    exact (hkept c hc).imp_left fun hsame => hsame.trans hput
  · exact (h.sweeps sweep hsweep).mono (fun c hc => hc) (le_refl _) (fun _ _ hgone => hdata _ hgone)
      fun _ _ hgone => hnone _ hgone

section
variable [DecidableEq Row] {partition : Partition} {rest : List (PartitionChunk Row)}
  {chunk : PartitionChunk Row} {target : ChunkTarget}

theorem purgeSound_select (h : PurgeSound host names s) {rows : List Row}
    (hwithin : (PurgeAction.select partition rows).Within host names)
    (hstep : s.step host (.select partition rows) = some t) : PurgeSound host names t := by
  rw [step, ite_none_right_eq_some] at hstep
  obtain ⟨hselectable, hstep⟩ := hstep
  rw [selectable, Bool.and_eq_true, Bool.and_eq_true, List.all_eq_true] at hselectable
  obtain ⟨⟨-, hnodup⟩, hall⟩ := hselectable
  have hrows : ∀ row ∈ rows, row ∈ s.rows ∧ host.partition row = partition := by
    intro row hrow
    have hrow' := hall row hrow
    rw [Bool.and_eq_true] at hrow'
    exact ⟨of_decide_eq_true hrow'.1, of_decide_eq_true hrow'.2⟩
  split at hstep
  next chunks hchunks =>
    cases hstep
    obtain ⟨hperm, hspec⟩ := partitionChunks_spec hchunks fun row hrow => (hrows row hrow).2
    refine h.goOn fun archiving harchiving => ?_
    cases harchiving
    have hmem : ∀ chunk ∈ chunks, ∀ row ∈ chunk.rows, row ∈ rows := fun chunk hchunk row hrow =>
      hperm.mem_iff.1 (mem_flatMap.2 ⟨chunk, hchunk, hrow⟩)
    refine ⟨hperm.nodup_iff.2 (of_decide_eq_true hnodup), fun chunk hchunk => ?_,
      fun chunk hchunk row hrow c hc hin => ?_, fun _ _ _ => trivial⟩
    · obtain ⟨hatLeast, hbucket, hpurges⟩ := hspec chunk hchunk
      refine ⟨⟨hwithin chunks hchunks chunk hchunk, hbucket⟩, fun row hrow => ?_, hatLeast, hpurges⟩
      exact ⟨h.rows row (hrows row (hmem chunk hchunk row hrow)).1,
        (hrows row (hmem chunk hchunk row hrow)).2⟩
    · exact (h.committed c hc).gone row hin (hrows row (hmem chunk hchunk row hrow)).1
  · cases hstep
    exact h

theorem purgeSound_insert (h : PurgeSound host names s) {row : Row}
    (hstep : s.step host (.insert row) = some t) : PurgeSound host names t := by
  rw [step, ite_none_right_eq_some] at hstep
  obtain ⟨hnew, hstep⟩ := hstep
  cases hstep
  rw [List.all_eq_true] at hnew
  have hnew' : ∀ old ∈ s.known, host.rowKey old ≠ host.rowKey row := fun old hold =>
    of_decide_eq_true (hnew old hold)
  have hknown : ∀ old ∈ s.known, old ∈ s.known ++ [row] := fun old hold => mem_append_left _ hold
  refine ⟨fun x hx y hy hkey => ?_, fun x hx => ?_, fun p archiving harchiving => ?_, fun c hc => ?_,
    h.apart, h.index, fun sweep hsweep => ?_, h.manifests⟩
  · rcases mem_append.1 hx with hx | hx
    · rcases mem_append.1 hy with hy | hy
      · exact h.keys x hx y hy hkey
      · rw [mem_singleton.1 hy] at hkey
        exact absurd hkey (hnew' x hx)
    · rcases mem_append.1 hy with hy | hy
      · rw [mem_singleton.1 hx] at hkey
        exact absurd hkey.symm (hnew' y hy)
      · rw [mem_singleton.1 hx, mem_singleton.1 hy]
  · rcases mem_append.1 hx with hx | hx
    · exact hknown x (h.rows x hx)
    · exact mem_append_right _ hx
  · exact (h.archiving p archiving harchiving).mono hknown (h.archiving p archiving harchiving).fresh
      fun _ _ _ _ _ hput => hput
  · refine (h.committed c hc).mono hknown (fun old hold hgone hin => ?_) (le_refl _)
      .inl fun _ _ hrow => hrow
    rcases mem_append.1 hin with hin | hin
    · exact hgone hin
    · -- The new row is none of the committed ones, which were known.
      rw [mem_singleton.1 hin] at hold
      exact hnew' row ((h.committed c hc).chunk.rows row hold).1 rfl
  · exact (h.sweeps sweep hsweep).mono (fun c hc => hc) (le_refl _) (fun _ _ hgone => hgone)
      fun _ _ hgone => hgone

/-- The data object is put. -/
theorem purgeSound_putData (hnames : NamesApart host names) (h : PurgeSound host names s)
    (harch : s.archiving partition = some ⟨chunk :: rest, .puttingData target⟩) :
    PurgeSound host names (s.archiveStep host partition chunk rest (.puttingData target)) := by
  have hsound := h.archiving partition _ harch
  have htarget : host.targetOf partition chunk = .ok target := hsound.stage chunk rest rfl
  have hchunk := hsound.chunks chunk mem_cons_self
  have hne := fun c (hc : c ∈ s.committed) =>
    (key_ne_of_fresh hnames h hchunk (hsound.fresh chunk mem_cons_self) htarget hc).1
  have hput : PurgeSound host names
      { s with data := update s.data target.dataKey (some chunk.rows), manifests := s.manifests } := by
    refine h.objects (fun c hc => update_of_ne (hne c hc).symm _ _) (fun _ _ => rfl)
      (fun p archiving harchiving chunk' rest' htodo target' htarget' hdata => ?_) h.manifests
    by_cases hkey : target'.dataKey = target.dataKey
    · -- Only the cycle that puts the object lies at its key.
      have hsound' := h.archiving p archiving harchiving
      have hchunk' := hsound'.chunks chunk' (htodo ▸ mem_cons_self)
      obtain ⟨hid, hdataKey, -⟩ := targetOf_eq_ok htarget
      obtain ⟨hid', hdataKey', -⟩ := targetOf_eq_ok htarget'
      have hname := name_eq_of_key hnames hchunk'.named hchunk.named (hid' ▸ hdataKey')
        (hid ▸ hkey ▸ hdataKey)
      have hp : p = partition := congrArg ChunkName.partition hname
      rw [hp, harch] at harchiving
      cases harchiving
      cases htodo
      rw [hkey]
      exact update_self ..
    · exact (update_of_ne hkey ..).trans hdata
  refine hput.goOn fun archiving harchiving => ?_
  cases harchiving
  exact ((hput.archiving partition _ harch).setStage htarget)

theorem purgeSound_putManifest (hnames : NamesApart host names) (h : PurgeSound host names s)
    (harch : s.archiving partition = some ⟨chunk :: rest, .puttingManifest target⟩) :
    PurgeSound host names (s.archiveStep host partition chunk rest (.puttingManifest target)) := by
  have hsound := h.archiving partition _ harch
  obtain ⟨htarget, hdata⟩ : host.targetOf partition chunk = .ok target ∧
    s.data target.dataKey = some chunk.rows :=
    hsound.stage chunk rest rfl
  have hchunk := hsound.chunks chunk mem_cons_self
  have hne := fun c (hc : c ∈ s.committed) =>
    (key_ne_of_fresh hnames h hchunk (hsound.fresh chunk mem_cons_self) htarget hc).2
  have hput : PurgeSound host names { s with
      data := s.data
      manifests := update s.manifests target.manifestKey
        (some (manifestFor partition chunk target)) } := by
    refine h.objects (fun _ _ => rfl) (fun c hc => update_of_ne (hne c hc).symm _ _)
      (fun _ _ _ _ _ _ _ _ hput => hput) fun key manifest hmanifest => ?_
    by_cases hkey : key = target.manifestKey
    · rw [hkey, update_self] at hmanifest
      cases hmanifest
      exact ⟨partition, chunk, target, hchunk.named, htarget, rfl, hkey.symm⟩
    · rw [update_of_ne hkey] at hmanifest
      exact h.manifests key manifest hmanifest
  refine hput.goOn fun archiving harchiving => ?_
  cases harchiving
  exact (hput.archiving partition _ harch).setStage ⟨htarget, hdata⟩

section

variable (h : PurgeSound host names s)
  (harch : s.archiving partition = some ⟨chunk :: rest, .committing target⟩)
include h harch

/-- The transaction commits. -/
theorem purgeSound_committed {index : ChunkIndex} (hold : ∀ row ∈ s.index, row ∈ index)
    (hindex : ∀ row ∈ index, row ∈ s.index ∨ indexRowFor partition chunk target s.now = some row)
    (hnew : ∀ row ∈ indexRowFor partition chunk target s.now, row ∈ index) :
    PurgeSound host names (goOn { s with
      rows := s.rows.filter (· ∉ chunk.rows)
      index
      committed := s.committed ++ [⟨partition, chunk, target, s.now⟩] } partition
      (some ⟨rest, .encoding⟩)) := by
  have hsound := h.archiving partition _ harch
  obtain ⟨htarget, hdata⟩ : host.targetOf partition chunk = .ok target ∧
    s.data target.dataKey = some chunk.rows :=
    hsound.stage chunk rest rfl
  have hchunk := hsound.chunks chunk mem_cons_self
  have hfresh := hsound.fresh chunk mem_cons_self
  have hcommitted : ∀ {c : CommittedChunk Row}, c ∈ s.committed ++ [⟨partition, chunk, target, s.now⟩] →
      c ∈ s.committed ∨ c = ⟨partition, chunk, target, s.now⟩ := fun hc =>
    (mem_append.1 hc).imp_right mem_singleton.1
  refine ⟨h.keys, fun row hrow => h.rows row (mem_of_mem_filter hrow), fun p archiving harchiving => ?_,
    fun c hc => ?_, fun c hc c' hc' row hrow hrow' => ?_, fun row hrow => ?_, fun sweep hsweep =>
      ?_, h.manifests⟩
  · rcases archiving_goOn harchiving with ⟨rfl, heq⟩ | ⟨hp, hother⟩
    · cases heq
      refine hsound.tail.mono (fun row hrow => hrow) (fun chunk' hchunk' row hrow c hc hin => ?_)
        fun _ _ _ _ _ hput => hput
      rcases hcommitted hc with hc | rfl
      · exact hsound.fresh chunk' (mem_cons_of_mem _ hchunk') row hrow c hc hin
      · -- No row is in two chunks of one cycle.
        have hnodup := hsound.nodup
        rw [flatMap_cons] at hnodup
        exact (nodup_append.1 hnodup).2.2 row hin row (mem_flatMap.2 ⟨chunk', hchunk', hrow⟩) rfl
    · have hsound' := h.archiving p archiving hother
      refine hsound'.mono (fun row hrow => hrow) (fun chunk' hchunk' row hrow c hc hin => ?_)
        fun _ _ _ _ _ hput => hput
      rcases hcommitted hc with hc | rfl
      · exact hsound'.fresh chunk' hchunk' row hrow c hc hin
      · exact hp (((hsound'.chunks chunk' hchunk').rows row hrow).2.symm.trans (hchunk.rows row hin).2)
  · rcases hcommitted hc with hc | rfl
    · refine (h.committed c hc).mono (fun row hrow => hrow) (fun row _ hgone hin => ?_) (le_refl _) .inl
        fun row _ hrow => hrow.imp_left (hold row)
      exact hgone (mem_of_mem_filter hin)
    · refine ⟨hchunk, htarget, fun row hrow hin => ?_, .inl hdata, fun row hrow => .inl (hnew row hrow)⟩
      exact of_decide_eq_true (mem_filter.1 hin).2 hrow
  · rcases hcommitted hc with hc | rfl
    · rcases hcommitted hc' with hc' | rfl
      · exact h.apart c hc c' hc' row hrow hrow'
      · exact absurd hrow (hfresh row hrow' c hc)
    · rcases hcommitted hc' with hc' | rfl
      · exact absurd hrow' (hfresh row hrow c' hc')
      · rfl
  · rcases hindex row hrow with hrow | hrow
    · obtain ⟨c, hc, hrow⟩ := h.index row hrow
      exact ⟨c, mem_append_left _ hc, hrow⟩
    · exact ⟨_, mem_append_right _ (mem_singleton_self _), hrow⟩
  · exact (h.sweeps sweep hsweep).mono (fun c hc => mem_append_left _ hc) (le_refl _)
      (fun _ _ hgone => hgone)
      fun _ _ hgone => hgone

theorem purgeSound_commit :
    PurgeSound host names (s.archiveStep host partition chunk rest (.committing target)) := by
  have htail := (h.archiving partition _ harch).tail
  rw [archiveStep, commit]
  cases hrow : indexRowFor partition chunk target s.now with
  | none =>
    refine purgeSound_committed h harch (fun row hrow => hrow) (fun row hrow => .inl hrow)
      fun row hnew => ?_
    rw [hrow] at hnew
    cases hnew
  | some row =>
    dsimp only
    cases hlookup : s.index.lookup row.key with
    | some row' =>
      rw [isSome_some, if_pos rfl]
      refine h.goOn fun archiving harchiving => ?_
      cases harchiving
      exact htail
    | none =>
      rw [isSome_none, if_neg Bool.false_ne_true]
      refine purgeSound_committed h harch (fun row' hrow' => mem_insertNew_of_mem hrow' row)
        (fun row' hrow' => ?_) fun row' hrow' => ?_
      · rcases mem_insertNew hrow' with hold | rfl
        · exact .inl hold
        · exact .inr hrow
      · rw [hrow] at hrow'
        cases hrow'
        exact (lookup_eq_some.1 (lookup_insertNew_self hlookup)).1

end

theorem purgeSound_archive (hnames : NamesApart host names) (h : PurgeSound host names s)
    (hstep : s.step host (.archive partition) = some t) : PurgeSound host names t := by
  obtain ⟨⟨todo, stage⟩, harch, ht⟩ := map_eq_some_iff.1 hstep
  rw [← ht]
  have hsound := h.archiving partition _ harch
  cases todo with
  | nil => exact h.goOn nofun
  | cons chunk rest =>
    dsimp only
    cases stage with
    | encoding =>
      rw [archiveStep]
      split
      next target htarget =>
        refine h.goOn fun archiving harchiving => ?_
        cases harchiving
        exact hsound.setStage htarget
      · exact h.goOn nofun
    | puttingData target => exact purgeSound_putData hnames h harch
    | verifying target =>
      rw [archiveStep]
      split
      next hdata =>
        refine h.goOn fun archiving harchiving => ?_
        cases harchiving
        exact hsound.setStage ⟨hsound.stage chunk rest rfl, hdata⟩
      · refine h.goOn fun archiving harchiving => ?_
        cases harchiving
        exact hsound.tail
    | puttingManifest target => exact purgeSound_putManifest hnames h harch
    | committing target => exact purgeSound_commit h harch

end

/-! ## Sweeps -/

/-- A sweep goes on, and nothing else changes. -/
theorem PurgeSound.sweepOn (h : PurgeSound host names s) {j : ℕ}
    (hsweep : SweepSound host s ⟨candidates, stage⟩) :
    PurgeSound host names (s.sweepOn j candidates stage) := by
  refine h.quiet rfl rfl rfl rfl rfl rfl (le_refl _) h.archiving fun sweep hmem => ?_
  rcases mem_or_eq_of_mem_set hmem with hold | rfl
  · exact h.sweeps sweep hold
  · exact hsweep

theorem getElem?_sweepOn {j : ℕ} (hj : j < s.sweeps.length) :
    (s.sweepOn j candidates stage).sweeps[j]? = some ⟨candidates, stage⟩ := getElem?_set_self hj

/-- A sweep turns to candidates that it has. -/
theorem SweepSound.beginning {sweep : Sweep} (h : SweepSound host s sweep)
    (hmem : ∀ candidate ∈ candidates, candidate ∈ sweep.candidates) :
    SweepSound host s ⟨candidates, .beginning⟩ :=
  ⟨fun candidate hcandidate => h.candidates candidate (hmem candidate hcandidate),
    nofun, nofun⟩

theorem sweepSound_list (h : PurgeSound host names s) (tableFilter bucketFilter : Option JsString)
    (limit : ℕ) :
    SweepSound host s ⟨s.listPurgeableChunks host tableFilter bucketFilter limit, .beginning⟩ := by
  refine ⟨fun candidate hmem => ?_, nofun, nofun⟩
  have hlisted := (perm_insertionSort _ _).mem_iff.1 (mem_of_mem_take hmem)
  obtain ⟨hrow, hfilter⟩ := mem_filter.1 hlisted
  rw [Bool.and_eq_true] at hfilter
  exact ⟨h.index candidate hrow, hfilter.2⟩

/-- The data object of a candidate is deleted: it is one whose time has passed. -/
theorem purgeSound_deleteData (hnames : NamesApart host names) (h : PurgeSound host names s)
    (hcommitted : ∃ c ∈ s.committed, c.indexRow = some candidate)
    (hover : candidate.maxColdDays.isOver host.addDays candidate.archivedAt s.now) :
    PurgeSound host names { s with
      data := update s.data candidate.objectKey none
      manifests := s.manifests } := by
  obtain ⟨c, hc, hrow⟩ := hcommitted
  obtain ⟨-, -, -, -, hkey, hat, hkept⟩ := indexRow_eq_some hrow
  rw [hat, hkept] at hover
  refine h.erase (fun key hnone => ?_) (fun _ _ hmanifest => hmanifest) (fun c' hc' => ?_)
    fun p archiving harch chunk rest htodo target htarget => ?_
  · by_cases heq : key = candidate.objectKey
    · rw [heq, update_self]
    · rw [update_of_ne heq, hnone]
  · by_cases heq : c'.target.dataKey = candidate.objectKey
    · rw [eq_of_dataKey hnames h hc' hc (heq.trans hkey)]
      exact .inr hover
    · exact .inl (update_of_ne heq _ _)
  · have hsound := h.archiving p archiving harch
    have hmem : chunk ∈ archiving.todo := htodo ▸ mem_cons_self
    have hne := (key_ne_of_fresh hnames h (hsound.chunks chunk hmem) (hsound.fresh chunk hmem)
      htarget hc).1
    exact update_of_ne (hkey ▸ hne) _ _

theorem purgeSound_deleteManifest (h : PurgeSound host names s) (key : JsString) :
    PurgeSound host names { s with data := s.data, manifests := update s.manifests key none } := by
  refine h.erase (fun _ hnone => hnone) (fun key' manifest hmanifest => ?_) (fun _ _ => .inl rfl)
    fun _ _ _ _ _ _ _ _ => rfl
  by_cases heq : key' = key
  · rw [heq, update_self] at hmanifest
    cases hmanifest
  · rwa [update_of_ne heq] at hmanifest

section

variable (hnames : NamesApart host names) (h : PurgeSound host names s)
include hnames h

/-- A chunk leaves the index when nothing is left of its objects. -/
theorem purgeSound_record
    (hcommitted : ∃ c ∈ s.committed, c.indexRow = some candidate) (hgone : s.Gone candidate) :
    PurgeSound host names { s with index := s.index.delete candidate.key } := by
  obtain ⟨c, hc, hrow⟩ := hcommitted
  refine ⟨h.keys, h.rows, fun p archiving harch => ?_, fun c' hc' => ?_, h.apart,
    fun row hmem => h.index row (mem_delete.1 hmem).1, fun sweep hsweep => ?_, h.manifests⟩
  · exact (h.archiving p archiving harch).mono (fun row hrow => hrow)
      (h.archiving p archiving harch).fresh
      fun _ _ _ _ _ hput => hput
  · refine (h.committed c' hc').mono (fun row hrow => hrow) (fun _ _ hgone => hgone) (le_refl _) .inl
      fun row hrow' hindexed => ?_
    rcases hindexed with hmem | hgone'
    · by_cases hkey : row.key = candidate.key
      · -- The row of this key is that of the candidate.
        have hid : row.chunkId = candidate.chunkId := congrArg Prod.snd hkey
        rw [(indexRow_eq_some hrow').2.2.2.1, (indexRow_eq_some hrow).2.2.2.1] at hid
        obtain rfl := eq_of_chunkId hnames h hc' hc hid
        have hsame : row = candidate := some.inj (hrow'.symm.trans hrow)
        rw [hsame]
        exact .inr hgone
      · exact .inl (mem_delete.2 ⟨hmem, hkey⟩)
    · exact .inr hgone'
  · exact (h.sweeps sweep hsweep).mono (fun c hc => hc) (le_refl _) (fun _ _ hgone => hgone)
      fun _ _ hgone => hgone

theorem purgeSound_purge {j : ℕ}
    {rest : List ChunkIndexRow} (hsweep : s.sweeps[j]? = some ⟨candidate :: rest, stage⟩) :
    PurgeSound host names (s.purgeStep host j candidate rest stage) := by
  have hsound := h.sweeps _ (mem_of_getElem? hsweep)
  obtain ⟨hcommitted, hover⟩ := hsound.candidates candidate mem_cons_self
  have hrest : ∀ candidate' ∈ rest, candidate' ∈ candidate :: rest := fun _ hmem =>
    mem_cons_of_mem _ hmem
  cases stage with
  | beginning =>
    rw [purgeStep]
    split
    · exact h.sweepOn (hsound.beginning hrest)
    · exact h.sweepOn ⟨hsound.candidates, nofun, nofun⟩
  | deletingData =>
    have hdeleted := purgeSound_deleteData hnames h hcommitted hover
    refine hdeleted.sweepOn ⟨hsound.candidates, fun candidate' rest' hcandidates _ => ?_,
      nofun⟩
    cases hcandidates
    exact update_self ..
  | deletingManifest =>
    refine (purgeSound_deleteManifest h _).sweepOn ⟨hsound.candidates, nofun,
      fun candidate' rest' hcandidates _ => ?_⟩
    cases hcandidates
    exact ⟨hsound.data candidate rest rfl rfl, update_self ..⟩
  | recording =>
    refine (purgeSound_record hnames h hcommitted (hsound.gone candidate rest rfl rfl)).sweepOn ?_
    exact ⟨fun candidate' hmem => hsound.candidates candidate' (hrest candidate' hmem),
      nofun, nofun⟩

theorem unshared_of_sound
    (hcandidate : ∃ c ∈ s.committed, c.indexRow = some candidate) :
    (∀ row ∈ s.index, row.objectKey = candidate.objectKey → row.key = candidate.key) ∧
      ∀ manifest, s.manifests (manifestKeyOf candidate.objectKey) = some manifest →
        manifest.table = candidate.table ∧ manifest.tenantId = candidate.tenantId ∧
          manifest.partitionDate = candidate.partitionDate ∧ manifest.chunkId = candidate.chunkId := by
  obtain ⟨c, hc, hindexRow⟩ := hcandidate
  obtain ⟨htable, htenant, hdate, hid, hkey, -, -⟩ := indexRow_eq_some hindexRow
  refine ⟨fun row hrow hsame => ?_, fun manifest hmanifest => ?_⟩
  · obtain ⟨c', hc', hindexRow'⟩ := h.index row hrow
    have hkey' := (indexRow_eq_some hindexRow').2.2.2.2.1
    obtain rfl := eq_of_dataKey hnames h hc' hc (hkey'.symm.trans (hsame.trans hkey))
    rw [some.inj (hindexRow'.symm.trans hindexRow)]
  · obtain ⟨partition, chunk, target, hnamed, htarget, rfl, hmanifestKey⟩ :=
      h.manifests _ manifest hmanifest
    have hcommitted := h.committed c hc
    rw [hkey, manifestKeyOf_dataKey hcommitted.target] at hmanifestKey
    obtain ⟨hchunkId, -, hat⟩ := targetOf_eq_ok htarget
    obtain ⟨hchunkId', -, hat'⟩ := targetOf_eq_ok hcommitted.target
    have hname := name_eq_of_key hnames hnamed hcommitted.chunk.named (hchunkId ▸ hmanifestKey ▸ hat)
      (hchunkId' ▸ hat')
    have hpartition : partition = c.partition := congrArg ChunkName.partition hname
    rw [htable, htenant, hdate, hid, hchunkId', ← hname, ← hchunkId, ← hpartition]
    exact ⟨rfl, rfl, rfl, rfl⟩

end

end Kici.ColdStore
