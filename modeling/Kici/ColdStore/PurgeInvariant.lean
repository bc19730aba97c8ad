import Kici.ColdStore.Purge

/-!
# What is stored of a chunk

A chunk is written at keys that no other chunk is written at: its id is made of the least id of its
rows, so that chunks that share a key share a row (`name_eq_of_key`, `rows_meet`), and no row is
archived twice. What is stored of a committed chunk therefore changes only by sweeps, and these are
about chunks that are committed and whose time is over (`PurgeSound`).
-/

namespace Kici.ColdStore

open List ChunkKeyArgs ChunkObjectKind PurgeHost

variable {kind : ChunkObjectKind}
variable {Row : Type} {chunk : PartitionChunk Row} {partition : Partition} {c : CommittedChunk Row}
  {target : ChunkTarget}

/-- The names of chunks, no two of which have one id. The tables and the hashes have no slash. -/
structure NamesApart (host : PurgeHost Row) (names : Set ChunkName) : Prop where
  injOn : names.InjOn host.chunkId
  table : ∀ name ∈ names, slash ∉ name.partition.table
  sha256 : ∀ text, slash ∉ host.sha256 text

/-- A cycle makes chunks with these names. -/
def PurgeAction.Within (host : PurgeHost Row) (names : Set ChunkName) : PurgeAction Row → Prop
  | .select partition rows =>
    ∀ chunks, host.partitionChunks partition rows = .ok chunks → ∀ chunk ∈ chunks,
      host.nameOf partition chunk ∈ names
  | .elapse _ | .insert _ | .archive _ | .skipChunk _ | .endArchive _ | .list .. | .purge _
  | .skipCandidate _ | .endSweep _ => True

variable {host : PurgeHost Row} {names : Set ChunkName}

/-! ## Keys and names -/

/-- The chunk has a name of those, and a bucket that has a name if it has one. -/
structure WellNamed (host : PurgeHost Row) (names : Set ChunkName) (partition : Partition)
    (chunk : PartitionChunk Row) : Prop where
  name : host.nameOf partition chunk ∈ names
  bucket : ∀ retention ∈ chunk.retention, retention.bucket ≠ []

theorem slash_not_mem_chunkId (hnames : NamesApart host names) (name : ChunkName) :
    slash ∉ host.chunkId name := fun hmem => hnames.sha256 _ (mem_of_mem_take hmem)

/-- What has a key is valid. -/
theorem valid_of_chunkObjectKey (hnames : NamesApart host names)
    (hnamed : WellNamed host names partition chunk) {key : JsString}
    (hkey : (host.keyArgs partition chunk.retention (host.chunkId (host.nameOf partition chunk))
      kind).chunkObjectKey = .ok key) :
    (host.keyArgs partition chunk.retention (host.chunkId (host.nameOf partition chunk))
      kind).Valid := by
  obtain ⟨directory, hdirectory, -⟩ := bind_eq_ok hkey
  have hday : ∀ {args : ChunkKeyArgs} {day : JsString}, args.tenantDayPrefix = .ok day →
      isPartitionDate args.partitionDate := by
    intro args day h
    rw [tenantDayPrefix] at h
    split at h
    next hdate => exact hdate
    · cases h
  rw [ChunkKeyArgs.directory] at hdirectory
  cases hretention : chunk.retention with
  | none =>
    rw [hretention] at hdirectory
    exact ⟨hday hdirectory, fun b hb => (by cases hb), hnames.table _ hnamed.name,
      slash_not_mem_chunkId hnames _⟩
  | some retention =>
    rw [hretention] at hdirectory
    have hbucket := hnamed.bucket retention hretention
    have hdirectory' :
      (host.keyArgs partition (some retention) (host.chunkId (host.nameOf partition chunk))
        kind).tenantDayBucketPrefix retention.bucket = .ok directory := by
      cases hb : retention.bucket with
      | nil => exact absurd hb hbucket
      | cons c cs =>
        simp only [keyArgs, Option.map_some, hb] at hdirectory ⊢
        exact hdirectory
    rw [tenantDayBucketPrefix] at hdirectory'
    split at hdirectory'
    next hsegment =>
      obtain ⟨day, hd, -⟩ := bind_eq_ok hdirectory'
      refine ⟨hday hd, fun b hb => ?_, hnames.table _ hnamed.name, slash_not_mem_chunkId hnames _⟩
      cases hb
      exact hsegment
    · cases hdirectory'

/-- Chunks that share a key have one name. -/
theorem name_eq_of_key (hnames : NamesApart host names) {partition partition' : Partition}
    {chunk chunk' : PartitionChunk Row} (hnamed : WellNamed host names partition chunk)
    (hnamed' : WellNamed host names partition' chunk') {key : JsString}
    (hkey : (host.keyArgs partition chunk.retention (host.chunkId (host.nameOf partition chunk))
      kind).chunkObjectKey = .ok key)
    (hkey' : (host.keyArgs partition' chunk'.retention (host.chunkId (host.nameOf partition' chunk'))
      kind).chunkObjectKey = .ok key) : host.nameOf partition chunk = host.nameOf partition' chunk' := by
  have hvalid := valid_of_chunkObjectKey hnames hnamed hkey
  have hvalid' := valid_of_chunkObjectKey hnames hnamed' hkey'
  have hsegments := segments_eq_of_chunkObjectKey_eq hvalid hvalid' rfl (hkey.trans hkey'.symm)
  obtain ⟨-, hfile⟩ := append_inj' hsegments rfl
  rw [List.cons.injEq] at hfile
  exact hnames.injOn hnamed.name hnamed'.name (eq_of_append_suffix hfile.1).1

theorem targetOf_eq_ok (h : host.targetOf partition chunk = .ok target) :
    target.chunkId = host.chunkId (host.nameOf partition chunk) ∧
      (host.keyArgs partition chunk.retention target.chunkId .data).chunkObjectKey = .ok target.dataKey ∧
      (host.keyArgs partition chunk.retention target.chunkId .manifest).chunkObjectKey =
      .ok target.manifestKey := by
  obtain ⟨dataKey, hdata, h⟩ := bind_eq_ok h
  obtain ⟨manifestKey, hmanifest, h⟩ := bind_eq_ok h
  cases h
  exact ⟨rfl, hdata, hmanifest⟩

theorem manifestKeyOf_append (base : JsString) : manifestKeyOf (base ++ data.suffix) =
    base ++ manifest.suffix := by
  have hends : (base ++ data.suffix).endsWith data.suffix :=
    decide_eq_true (suffix_append _ _)
  rw [manifestKeyOf, if_pos hends, length_append, Nat.add_sub_cancel, take_left' rfl]

/-- The manifest key is made of the data key. -/
theorem manifestKeyOf_dataKey
    (h : host.targetOf partition chunk = .ok target) :
    manifestKeyOf target.dataKey = target.manifestKey := by
  obtain ⟨-, hdata, hmanifest⟩ := targetOf_eq_ok h
  obtain ⟨directory, hdirectory, hdata⟩ := bind_eq_ok hdata
  obtain ⟨directory', hdirectory', hmanifest⟩ := bind_eq_ok hmanifest
  have hsame : directory = directory' := Except.ok.inj (hdirectory.symm.trans hdirectory')
  have hdataKey := Except.ok.inj hdata
  have hmanifestKey := Except.ok.inj hmanifest
  rw [← hdataKey, ← hmanifestKey, hsame]
  exact manifestKeyOf_append _

/-- The least id of a chunk is that of one of its rows. -/
theorem exists_minRowId (adapter : RowAdapter Row) (first : Row) (rest : List Row) :
    ∃ row ∈ first :: rest, adapter.rowId row = minRowId adapter first rest := by
  have hfold : ∀ (rows : List Row) (row : Row), ∃ row' ∈ row :: rows, adapter.rowId row' =
      rows.foldl (fun least row => if (adapter.rowId row).Less least then adapter.rowId row else least)
        (adapter.rowId row) := by
    intro rows
    induction rows with
    | nil => exact fun row => ⟨row, mem_singleton_self row, rfl⟩
    | cons next rows ih =>
      intro row
      rw [foldl_cons]
      split
      · obtain ⟨row', hrow', hid⟩ := ih next
        exact ⟨row', mem_cons_of_mem _ hrow', hid⟩
      · obtain ⟨row', hrow', hid⟩ := ih row
        refine ⟨row', ?_, hid⟩
        rcases mem_cons.1 hrow' with rfl | hrow'
        · exact mem_cons_self
        · exact mem_cons_of_mem _ (mem_cons_of_mem _ hrow')
  exact hfold rest first

/-- Chunks of known rows that share a key share a row. -/
theorem rows_meet {known : List Row}
    (hinj : ∀ row ∈ known, ∀ row' ∈ known, host.rowKey row = host.rowKey row' → row = row')
    {partition partition' : Partition} {chunk chunk' : PartitionChunk Row}
    (hrows : ∀ row ∈ chunk.rows, row ∈ known ∧ host.partition row = partition)
    (hrows' : ∀ row ∈ chunk'.rows, row ∈ known ∧ host.partition row = partition')
    (hname : host.nameOf partition chunk = host.nameOf partition' chunk') :
    ∃ row ∈ chunk.rows, row ∈ chunk'.rows := by
  rw [nameOf, nameOf, ChunkName.mk.injEq] at hname
  obtain ⟨rfl, hmin, -⟩ := hname
  obtain ⟨row, hrow, hid⟩ := exists_minRowId host.adapter chunk.first chunk.rest
  obtain ⟨row', hrow', hid'⟩ := exists_minRowId host.adapter chunk'.first chunk'.rest
  have hkey : host.rowKey row = host.rowKey row' := by
    rw [rowKey, rowKey, (hrows row hrow).2, (hrows' row' hrow').2, hid, hid', hmin]
  rw [hinj row (hrows row hrow).1 row' (hrows' row' hrow').1 hkey] at hrow
  exact ⟨row', hrow, hrow'⟩

/-! ## The invariant -/

def CommittedChunk.indexRow (c : CommittedChunk Row) : Option ChunkIndexRow :=
  indexRowFor c.partition c.chunk c.target c.archivedAt

/-- Nothing is left of the objects of a chunk. -/
def PurgeState.Gone (s : PurgeState Row) (row : ChunkIndexRow) : Prop :=
  s.data row.objectKey = none ∧ s.manifests (manifestKeyOf row.objectKey) = none

/-- For how long a chunk is kept. -/
def PartitionChunk.kept (chunk : PartitionChunk Row) : ColdRetention :=
  chunk.retention.elim .forever fun retention => retention.maxColdDays

/-- A chunk as cycles make them. -/
structure ChunkSound (host : PurgeHost Row) (names : Set ChunkName) (known : List Row)
    (partition : Partition) (chunk : PartitionChunk Row) : Prop where
  named : WellNamed host names partition chunk
  rows : ∀ row ∈ chunk.rows, row ∈ known ∧ host.partition row = partition
  atLeast : ∀ row ∈ chunk.rows, chunk.kept.AtLeast (host.retentionOf row)
  purges : chunk.retention.isSome = true → (host.coldTtlDays partition.table).isSome = true

/-- The chunk lies at the target, and its data object is there once it is verified. -/
def WriteStage.Sound (host : PurgeHost Row) (s : PurgeState Row) (partition : Partition)
    (chunk : PartitionChunk Row) : WriteStage → Prop
  | .encoding => True
  | .puttingData target | .verifying target => host.targetOf partition chunk = .ok target
  | .puttingManifest target | .committing target =>
    host.targetOf partition chunk = .ok target ∧ s.data target.dataKey = some chunk.rows

/-- What a cycle has yet to archive was not archived before. -/
structure ArchivingSound (host : PurgeHost Row) (names : Set ChunkName) (s : PurgeState Row)
    (partition : Partition) (archiving : Archiving Row) : Prop where
  nodup : (archiving.todo.flatMap (·.rows)).Nodup
  chunks : ∀ chunk ∈ archiving.todo, ChunkSound host names s.known partition chunk
  fresh : ∀ chunk ∈ archiving.todo, ∀ row ∈ chunk.rows, ∀ c ∈ s.committed, row ∉ c.chunk.rows
  stage : ∀ chunk rest, archiving.todo = chunk :: rest → archiving.stage.Sound host s partition chunk

structure CommittedSound (host : PurgeHost Row) (names : Set ChunkName) (s : PurgeState Row)
    (c : CommittedChunk Row) : Prop where
  chunk : ChunkSound host names s.known c.partition c.chunk
  target : host.targetOf c.partition c.chunk = .ok c.target
  gone : ∀ row ∈ c.chunk.rows, row ∉ s.rows
  kept : s.data c.target.dataKey = some c.chunk.rows ∨
    c.chunk.kept.isOver host.addDays c.archivedAt s.now = true
  indexed : ∀ row ∈ c.indexRow, row ∈ s.index ∨ s.Gone row

/-- What a sweep is about is committed, and its time is over. -/
structure SweepSound (host : PurgeHost Row) (s : PurgeState Row) (sweep : Sweep) : Prop where
  candidates : ∀ candidate ∈ sweep.candidates, (∃ c ∈ s.committed, c.indexRow = some candidate) ∧
    candidate.maxColdDays.isOver host.addDays candidate.archivedAt s.now = true
  data : ∀ candidate rest, sweep.candidates = candidate :: rest → sweep.stage = .deletingManifest →
    s.data candidate.objectKey = none
  gone : ∀ candidate rest, sweep.candidates = candidate :: rest → sweep.stage = .recording →
    s.Gone candidate

structure PurgeSound (host : PurgeHost Row) (names : Set ChunkName) (s : PurgeState Row) : Prop where
  keys : ∀ row ∈ s.known, ∀ row' ∈ s.known, host.rowKey row = host.rowKey row' → row = row'
  rows : ∀ row ∈ s.rows, row ∈ s.known
  archiving : ∀ partition archiving, s.archiving partition = some archiving →
    ArchivingSound host names s partition archiving
  committed : ∀ c ∈ s.committed, CommittedSound host names s c
  apart : ∀ c ∈ s.committed, ∀ c' ∈ s.committed, ∀ row ∈ c.chunk.rows, row ∈ c'.chunk.rows → c = c'
  index : ∀ row ∈ s.index, ∃ c ∈ s.committed, c.indexRow = some row
  sweeps : ∀ sweep ∈ s.sweeps, SweepSound host s sweep
  manifests : ∀ key manifest, s.manifests key = some manifest → ∃ partition chunk target,
    WellNamed host names partition chunk ∧ host.targetOf partition chunk = .ok target ∧
      manifest = manifestFor partition chunk target ∧ target.manifestKey = key

variable {s t : PurgeState Row}

/-! ### What the invariant says of keys -/

theorem indexRow_eq_some {row : ChunkIndexRow} (h : c.indexRow = some row) :
    row.table = c.partition.table ∧ row.tenantId = c.partition.tenantId ∧
      row.partitionDate = c.partition.partitionDate ∧ row.chunkId = c.target.chunkId ∧
      row.objectKey = c.target.dataKey ∧ row.archivedAt = c.archivedAt ∧
      row.maxColdDays = c.chunk.kept := by
  obtain ⟨retention, hretention, rfl⟩ := Option.map_eq_some_iff.1 h
  rw [PartitionChunk.kept, hretention]
  exact ⟨rfl, rfl, rfl, rfl, rfl, rfl, rfl⟩

section

variable (hnames : NamesApart host names) (h : PurgeSound host names s)
include hnames h

/-- A chunk that is yet to be archived is at no key of a committed one. -/
theorem key_ne_of_fresh
    (hchunk : ChunkSound host names s.known partition chunk)
    (hfresh : ∀ row ∈ chunk.rows, ∀ c ∈ s.committed, row ∉ c.chunk.rows)
    (htarget : host.targetOf partition chunk = .ok target) (hc : c ∈ s.committed) :
    target.dataKey ≠ c.target.dataKey ∧ target.manifestKey ≠ c.target.manifestKey := by
  have hcommitted := h.committed c hc
  obtain ⟨hid, hdata, hmanifest⟩ := targetOf_eq_ok htarget
  obtain ⟨hid', hdata', hmanifest'⟩ := targetOf_eq_ok hcommitted.target
  rw [hid] at hdata hmanifest
  rw [hid'] at hdata' hmanifest'
  have hne : host.nameOf partition chunk ≠ host.nameOf c.partition c.chunk := by
    intro hname
    obtain ⟨row, hrow, hrow'⟩ := rows_meet h.keys hchunk.rows hcommitted.chunk.rows hname
    exact hfresh row hrow c hc hrow'
  constructor
  · intro heq
    exact hne (name_eq_of_key hnames hchunk.named hcommitted.chunk.named hdata (heq ▸ hdata'))
  · intro heq
    exact hne (name_eq_of_key hnames hchunk.named hcommitted.chunk.named hmanifest (heq ▸ hmanifest'))

/-- Committed chunks of one id, or at one key, are the same. -/
theorem eq_of_chunkId {c c' : CommittedChunk Row}
    (hc : c ∈ s.committed) (hc' : c' ∈ s.committed) (hid : c.target.chunkId = c'.target.chunkId) :
    c = c' := by
  have hsound := h.committed c hc
  have hsound' := h.committed c' hc'
  rw [(targetOf_eq_ok hsound.target).1, (targetOf_eq_ok hsound'.target).1] at hid
  have hname := hnames.injOn hsound.chunk.named.name hsound'.chunk.named.name hid
  obtain ⟨row, hrow, hrow'⟩ := rows_meet h.keys hsound.chunk.rows hsound'.chunk.rows hname
  exact h.apart c hc c' hc' row hrow hrow'

theorem eq_of_dataKey {c c' : CommittedChunk Row}
    (hc : c ∈ s.committed) (hc' : c' ∈ s.committed) (hkey : c.target.dataKey = c'.target.dataKey) :
    c = c' := by
  have hsound := h.committed c hc
  have hsound' := h.committed c' hc'
  obtain ⟨hid, hdata, -⟩ := targetOf_eq_ok hsound.target
  obtain ⟨hid', hdata', -⟩ := targetOf_eq_ok hsound'.target
  have hname := name_eq_of_key hnames hsound.chunk.named hsound'.chunk.named (hid ▸ hdata)
    (hid' ▸ hkey ▸ hdata')
  exact eq_of_chunkId hnames h hc hc' (by rw [hid, hid', hname])

end

/-! ## What a step leaves -/

variable {archiving : Archiving Row}

section
variable {partition : Partition}

theorem ChunkSound.mono {chunk : PartitionChunk Row} (h : ChunkSound host names s.known partition chunk)
    (hknown : ∀ row ∈ s.known, row ∈ t.known) : ChunkSound host names t.known partition chunk :=
  ⟨h.named, fun row hrow => ⟨hknown row (h.rows row hrow).1, (h.rows row hrow).2⟩, h.atLeast, h.purges⟩

/-- The data object is there, if no step removes it. -/
theorem WriteStage.Sound.mono {chunk : PartitionChunk Row} {stage : WriteStage}
    (h : stage.Sound host s partition chunk)
    (hdata : ∀ target, host.targetOf partition chunk = .ok target →
      s.data target.dataKey = some chunk.rows →
      t.data target.dataKey = some chunk.rows) : stage.Sound host t partition chunk := by
  cases stage with
  | encoding => trivial
  | puttingData target => exact h
  | verifying target => exact h
  | puttingManifest target => exact ⟨h.1, hdata target h.1 h.2⟩
  | committing target => exact ⟨h.1, hdata target h.1 h.2⟩

theorem ArchivingSound.mono (h : ArchivingSound host names s partition archiving)
    (hknown : ∀ row ∈ s.known, row ∈ t.known)
    (hfresh : ∀ chunk ∈ archiving.todo, ∀ row ∈ chunk.rows, ∀ c ∈ t.committed, row ∉ c.chunk.rows)
    (hdata : ∀ chunk rest, archiving.todo = chunk :: rest → ∀ target,
      host.targetOf partition chunk = .ok target →
      s.data target.dataKey = some chunk.rows → t.data target.dataKey = some chunk.rows) :
    ArchivingSound host names t partition archiving :=
  ⟨h.nodup, fun chunk hchunk => (h.chunks chunk hchunk).mono hknown, hfresh,
    fun chunk rest htodo => (h.stage chunk rest htodo).mono (hdata chunk rest htodo)⟩

/-- What is left of a cycle when its first chunk is done with. -/
theorem ArchivingSound.tail (h : ArchivingSound host names s partition archiving) :
    ArchivingSound host names s partition ⟨archiving.todo.tail, .encoding⟩ := by
  have hmem : ∀ chunk ∈ archiving.todo.tail, chunk ∈ archiving.todo := fun chunk hchunk =>
    mem_of_mem_tail hchunk
  refine ⟨?_, fun chunk hchunk => h.chunks chunk (hmem chunk hchunk),
    fun chunk hchunk => h.fresh chunk (hmem chunk hchunk), fun _ _ _ => trivial⟩
  cases htodo : archiving.todo with
  | nil => exact nodup_nil
  | cons chunk rest =>
    have hnodup := h.nodup
    rw [htodo, flatMap_cons] at hnodup
    exact (nodup_append.1 hnodup).2.1

end

theorem CommittedSound.mono (h : CommittedSound host names s c)
    (hknown : ∀ row ∈ s.known, row ∈ t.known) (hgone : ∀ row ∈ c.chunk.rows, row ∉ s.rows → row ∉ t.rows)
    (hnow : s.now ≤ t.now)
    (hkept : s.data c.target.dataKey = some c.chunk.rows → t.data c.target.dataKey = some c.chunk.rows ∨
      c.chunk.kept.isOver host.addDays c.archivedAt t.now)
    (hindexed : ∀ row ∈ c.indexRow, row ∈ s.index ∨ s.Gone row → row ∈ t.index ∨ t.Gone row) :
    CommittedSound host names t c where
  chunk := h.chunk.mono hknown
  target := h.target
  gone row hrow := hgone row hrow (h.gone row hrow)
  kept := by
    rcases h.kept with hdata | hover
    · exact hkept hdata
    · exact .inr (ColdRetention.isOver_mono hover hnow)
  indexed row hrow := hindexed row hrow (h.indexed row hrow)

theorem SweepSound.mono {sweep : Sweep} (h : SweepSound host s sweep)
    (hcommitted : ∀ c ∈ s.committed, c ∈ t.committed) (hnow : s.now ≤ t.now)
    (hdata : ∀ candidate ∈ sweep.candidates, s.data candidate.objectKey = none →
      t.data candidate.objectKey = none)
    (hmanifests : ∀ candidate ∈ sweep.candidates,
      s.manifests (manifestKeyOf candidate.objectKey) = none →
      t.manifests (manifestKeyOf candidate.objectKey) = none) : SweepSound host t sweep := by
  refine ⟨fun candidate hmem => ?_, fun candidate rest hcandidates hstage => ?_,
    fun candidate rest hcandidates hstage => ?_⟩
  · obtain ⟨⟨c, hc, hrow⟩, hover⟩ := h.candidates candidate hmem
    exact ⟨⟨c, hcommitted c hc, hrow⟩, ColdRetention.isOver_mono hover hnow⟩
  · exact hdata candidate (hcandidates ▸ mem_cons_self) (h.data candidate rest hcandidates hstage)
  · obtain ⟨hdataGone, hmanifestGone⟩ := h.gone candidate rest hcandidates hstage
    have hmem : candidate ∈ sweep.candidates := hcandidates ▸ mem_cons_self
    exact ⟨hdata candidate hmem hdataGone, hmanifests candidate hmem hmanifestGone⟩

/-- A step that changes no object, no row and nothing of the index. -/
theorem PurgeSound.quiet (h : PurgeSound host names s) (hrows : t.rows = s.rows)
    (hknown : t.known = s.known)
    (hindex : t.index = s.index) (hdata : t.data = s.data) (hmanifests : t.manifests = s.manifests)
    (hcommitted : t.committed = s.committed) (hnow : s.now ≤ t.now)
    (harchiving : ∀ partition archiving, t.archiving partition = some archiving →
      ArchivingSound host names s partition archiving)
    (hsweeps : ∀ sweep ∈ t.sweeps, SweepSound host s sweep) : PurgeSound host names t where
  keys := hknown ▸ h.keys
  rows := by rw [hrows, hknown]; exact h.rows
  archiving partition archiving harch := by
    refine (harchiving partition archiving harch).mono (fun row hrow => hknown ▸ hrow) ?_
      fun _ _ _ _ _ hput => hdata ▸ hput
    rw [hcommitted]
    exact (harchiving partition archiving harch).fresh
  committed := by
    rw [hcommitted]
    refine fun c hc => (h.committed c hc).mono (fun row hrow => hknown ▸ hrow)
      (fun _ _ hgone => hrows ▸ hgone) hnow
      (fun hput => .inl (hdata ▸ hput)) fun row _ hrow => ?_
    rw [PurgeState.Gone, hindex, hdata, hmanifests]
    exact hrow
  apart := hcommitted ▸ h.apart
  index := by rw [hindex, hcommitted]; exact h.index
  sweeps sweep hsweep := (hsweeps sweep hsweep).mono (fun c hc => hcommitted ▸ hc) hnow
    (fun _ _ hgone => hdata ▸ hgone) fun _ _ hgone => hmanifests ▸ hgone
  manifests := hmanifests ▸ h.manifests

end Kici.ColdStore
