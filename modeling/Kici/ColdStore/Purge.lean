import Kici.ColdStore.Buckets
import Kici.Foundation.System
import Kici.Foundation.Table

/-!
# Archiving and purging

An archive cycle takes the rows of a tenant's day out of Postgres, under a lock of that partition.
Rows of a table that says how long they are kept become one chunk a bucket, and rows of another
table one chunk (`partitionChunks`). Each chunk is written in steps (`WriteStage`): the data object,
its verification, the manifest, and a transaction that deletes the rows and puts the chunk in an
index, with the time for which it is kept.

A sweep lists the chunks of the index whose time is over, and deletes of each the data object, the
manifest and, last, the row of the index (`PurgeStage`). Whatever throws or crashes leaves the rest
for another cycle, or another sweep.
-/

namespace Kici.ColdStore

open ChunkObjectKind Function

/-- A tenant's day of a table. -/
structure Partition where
  table : JsString
  tenantId : JsString
  partitionDate : JsString
  deriving DecidableEq

/-- The tables and their adapters, as far as rows are archived and purged. -/
structure PurgeHost (Row : Type) where
  keyPrefix : JsString
  db : DbKind
  sha256 : TextHash
  numberText : Rat → JsString
  /-- `archived_at + (days || ' days')::interval`, in the time zone of the session. -/
  addDays : ℤ → Rat → ℤ
  adapter : RowAdapter Row
  partition : Row → Partition
  /-- How long the rows of a table are kept, if its adapter says so. An adapter that does can purge,
  too. -/
  coldTtlDays : JsString → Option (Row → ColdRetention)

structure BucketRetention where
  bucket : JsString
  maxColdDays : ColdRetention

/-- The rows that become a chunk, with the bucket and its time or without both. -/
structure PartitionChunk (Row : Type) where
  retention : Option BucketRetention
  first : Row
  rest : List Row

/-- A row of `cold_store_chunks`. -/
structure ChunkIndexRow where
  table : JsString
  chunkId : JsString
  tenantId : JsString
  partitionDate : JsString
  bucket : JsString
  archivedAt : ℤ
  maxColdDays : ColdRetention
  objectKey : JsString
  rowCount : ℕ

/-- The primary key; all rows are of one database. -/
def ChunkIndexRow.key (row : ChunkIndexRow) : JsString × JsString := (row.table, row.chunkId)

abbrev ChunkIndex := Table ChunkIndexRow.key

/-- What a manifest says of where its chunk lies and how long it is kept. -/
structure RetentionManifest where
  table : JsString
  tenantId : JsString
  partitionDate : JsString
  chunkId : JsString
  retention : Option BucketRetention
  rowCount : ℕ

/-- What makes the id of a chunk. -/
structure ChunkName where
  partition : Partition
  minRowId : RowId
  maxRowId : RowId
  deriving DecidableEq

/-- Where a chunk is written to. -/
structure ChunkTarget where
  chunkId : JsString
  dataKey : JsString
  manifestKey : JsString

/-- `objectKey.replace(/\.jsonl\.gz$/, '.manifest.json')`. -/
def manifestKeyOf (objectKey : JsString) : JsString :=
  if objectKey.endsWith data.suffix then
    objectKey.take (objectKey.length - data.suffix.length) ++ manifest.suffix
  else objectKey

section
variable {Row : Type}

def PartitionChunk.rows (chunk : PartitionChunk Row) : List Row := chunk.first :: chunk.rest

def BucketRows.chunk (entry : BucketRows Row) : PartitionChunk Row :=
  ⟨some ⟨entry.bucket, entry.maxColdDays⟩, entry.first, entry.rest⟩

namespace PurgeHost

variable (host : PurgeHost Row)

/-- The primary key of a row. -/
def rowKey (row : Row) : JsString × RowId := ((host.partition row).table, host.adapter.rowId row)

/-- How long a row is kept; rows of a table that does not say are never purged. -/
def retentionOf (row : Row) : ColdRetention :=
  (host.coldTtlDays (host.partition row).table).elim .forever fun coldTtlDays => coldTtlDays row

/-- The chunks that a cycle makes of rows of a partition. -/
def partitionChunks (partition : Partition) (rows : List Row) :
    Except JsString (List (PartitionChunk Row)) :=
  match host.coldTtlDays partition.table with
  | some coldTtlDays => return (← bufferRows host.numberText coldTtlDays rows).map BucketRows.chunk
  | none =>
    match rows with
    | [] => .ok []
    | first :: rest => .ok [⟨none, first, rest⟩]

def nameOf (partition : Partition) (chunk : PartitionChunk Row) : ChunkName :=
  ⟨partition, minRowId host.adapter chunk.first chunk.rest, maxRowId host.adapter chunk.first chunk.rest⟩

def chunkId (name : ChunkName) : JsString :=
  computeChunkId host.sha256 host.db name.partition.table name.partition.tenantId
    name.partition.partitionDate
    name.minRowId name.maxRowId

def keyArgs (partition : Partition) (retention : Option BucketRetention) (chunkId : JsString)
    (kind : ChunkObjectKind) : ChunkKeyArgs where
  keyPrefix := host.keyPrefix
  db := host.db
  table := partition.table
  tenantId := partition.tenantId
  partitionDate := partition.partitionDate
  chunkId
  kind
  bucket := retention.map (·.bucket)

/-- The id and the keys of a chunk; `chunkObjectKey` throws if the date or the bucket is not valid. -/
def targetOf (partition : Partition) (chunk : PartitionChunk Row) : Except JsString ChunkTarget := do
  let chunkId := host.chunkId (host.nameOf partition chunk)
  let dataKey ← (host.keyArgs partition chunk.retention chunkId .data).chunkObjectKey
  let manifestKey ← (host.keyArgs partition chunk.retention chunkId .manifest).chunkObjectKey
  return ⟨chunkId, dataKey, manifestKey⟩

end PurgeHost

def manifestFor (partition : Partition) (chunk : PartitionChunk Row) (target : ChunkTarget) :
    RetentionManifest where
  table := partition.table
  tenantId := partition.tenantId
  partitionDate := partition.partitionDate
  chunkId := target.chunkId
  retention := chunk.retention
  rowCount := chunk.rows.length

/-- The row of the index, for a chunk with a bucket. -/
def indexRowFor (partition : Partition) (chunk : PartitionChunk Row) (target : ChunkTarget) (now : ℤ) :
    Option ChunkIndexRow :=
  chunk.retention.map fun retention =>
    { table := partition.table
      chunkId := target.chunkId
      tenantId := partition.tenantId
      partitionDate := partition.partitionDate
      bucket := retention.bucket
      archivedAt := now
      maxColdDays := retention.maxColdDays
      objectKey := target.dataKey
      rowCount := chunk.rows.length }

end

/-- How far the first chunk of a cycle is written. -/
inductive WriteStage
  | encoding
  | puttingData (target : ChunkTarget)
  | verifying (target : ChunkTarget)
  | puttingManifest (target : ChunkTarget)
  | committing (target : ChunkTarget)

/-- What a cycle has yet to do with a partition. -/
structure Archiving (Row : Type) where
  todo : List (PartitionChunk Row)
  stage : WriteStage := .encoding

/-- How far the first candidate of a sweep is purged: it is not begun, or the sweep has its lock. -/
inductive PurgeStage
  | beginning
  | deletingData
  | deletingManifest
  | recording
  deriving DecidableEq

structure Sweep where
  candidates : List ChunkIndexRow
  stage : PurgeStage := .beginning

/-- A chunk whose transaction has committed. -/
structure CommittedChunk (Row : Type) where
  partition : Partition
  chunk : PartitionChunk Row
  target : ChunkTarget
  archivedAt : ℤ

structure PurgeState (Row : Type) where
  /-- In microseconds. -/
  now : ℤ
  /-- The rows in Postgres. -/
  rows : List Row
  index : ChunkIndex
  /-- The data objects, as the rows that their bodies hold. -/
  data : JsString → Option (List Row)
  manifests : JsString → Option RetentionManifest
  /-- The cycles that have the lock of a partition. -/
  archiving : Partition → Option (Archiving Row)
  sweeps : List Sweep := []
  /-- All rows that were ever inserted. -/
  known : List Row
  committed : List (CommittedChunk Row) := []

inductive PurgeAction (Row : Type)
  | elapse (microseconds : ℕ)
  | insert (row : Row)
  /-- A cycle takes the lock of a partition and selects rows of it. -/
  | select (partition : Partition) (rows : List Row)
  | archive (partition : Partition)
  /-- The chunk is below `minChunkBytes`, or a statement throws: its rows stay for the next cycle. -/
  | skipChunk (partition : Partition)
  | endArchive (partition : Partition)
  | list (tableFilter bucketFilter : Option JsString) (limit : ℕ)
  | purge (j : ℕ)
  /-- Another sweep has the lock of the candidate, or what is waited for throws. -/
  | skipCandidate (j : ℕ)
  | endSweep (j : ℕ)

namespace PurgeState

variable {Row : Type} [DecidableEq Row] (host : PurgeHost Row) (s : PurgeState Row)

/-- The chunks that a sweep finds, the oldest first. -/
def listPurgeableChunks (tableFilter bucketFilter : Option JsString) (limit : ℕ) : List ChunkIndexRow :=
  ((s.index.rows.filter fun row =>
    tableFilter.all (row.table = ·) && bucketFilter.all (row.bucket = ·) &&
      row.maxColdDays.isOver host.addDays row.archivedAt s.now).insertionSort fun r r' =>
        r.archivedAt ≤ r'.archivedAt).take limit

/-- Another sweep has the lock of the candidate. -/
def locked (candidate : ChunkIndexRow) : Bool :=
  s.sweeps.any fun sweep => sweep.stage ≠ .beginning && sweep.candidates.head?.any
    (·.key = candidate.key)

/-- The cycle goes on with a partition. -/
def goOn (partition : Partition) (archiving : Option (Archiving Row)) : PurgeState Row :=
  { s with archiving := update s.archiving partition archiving }

/-- The transaction of `markArchivedAndDelete`; it throws if the index has the chunk. -/
def commit (partition : Partition) (chunk : PartitionChunk Row) (target : ChunkTarget) :
    Option (PurgeState Row) :=
  match indexRowFor partition chunk target s.now with
  | none =>
    some { s with
      rows := s.rows.filter (· ∉ chunk.rows)
      committed := s.committed ++ [⟨partition, chunk, target, s.now⟩] }
  | some row =>
    if (s.index.lookup row.key).isSome then none
    else
      some { s with
        rows := s.rows.filter (· ∉ chunk.rows)
        index := s.index.insertNew row
        committed := s.committed ++ [⟨partition, chunk, target, s.now⟩] }

/-- The next statement for the first chunk of a cycle. -/
def archiveStep (partition : Partition) (chunk : PartitionChunk Row) (rest : List (PartitionChunk Row)) :
    WriteStage → PurgeState Row
  | .encoding =>
    match host.targetOf partition chunk with
    | .ok target => s.goOn partition (some ⟨chunk :: rest, .puttingData target⟩)
    | .error _ => s.goOn partition none
  | .puttingData target =>
    { s with data := update s.data target.dataKey (some chunk.rows) }.goOn partition
      (some ⟨chunk :: rest, .verifying target⟩)
  | .verifying target =>
    if s.data target.dataKey = some chunk.rows then s.goOn partition
      (some ⟨chunk :: rest, .puttingManifest target⟩)
    else s.goOn partition (some ⟨rest, .encoding⟩)
  | .puttingManifest target =>
    { s with
      manifests := update s.manifests target.manifestKey
        (some (manifestFor partition chunk target)) }.goOn
        partition (some ⟨chunk :: rest, .committing target⟩)
  | .committing target =>
    ((s.commit partition chunk target).getD s).goOn partition (some ⟨rest, .encoding⟩)

/-- A sweep goes on. -/
def sweepOn (j : ℕ) (candidates : List ChunkIndexRow) (stage : PurgeStage) : PurgeState Row :=
  { s with sweeps := s.sweeps.set j ⟨candidates, stage⟩ }

/-- The next step of a sweep with its first candidate. -/
def purgeStep (j : ℕ) (candidate : ChunkIndexRow) (rest : List ChunkIndexRow) : PurgeStage →
    PurgeState Row
  | .beginning =>
    if (host.coldTtlDays candidate.table).isNone || s.locked candidate then s.sweepOn j rest .beginning
    else s.sweepOn j (candidate :: rest) .deletingData
  | .deletingData =>
    { s with data := update s.data candidate.objectKey none }.sweepOn j (candidate :: rest)
      .deletingManifest
  | .deletingManifest =>
    { s with manifests := update s.manifests (manifestKeyOf candidate.objectKey) none }.sweepOn j
      (candidate :: rest) .recording
  | .recording => { s with index := s.index.delete candidate.key }.sweepOn j rest .beginning

/-- The rows may be selected from a partition. -/
def selectable (partition : Partition) (rows : List Row) : Bool :=
  (s.archiving partition).isNone && decide rows.Nodup &&
    rows.all fun row => decide (row ∈ s.rows) && host.partition row = partition

def step : PurgeAction Row → Option (PurgeState Row)
  | .elapse microseconds => some { s with now := s.now + microseconds }
  | .insert row =>
    if s.known.all (host.rowKey · ≠ host.rowKey row) then
      some { s with rows := s.rows ++ [row], known := s.known ++ [row] }
    else none
  | .select partition rows =>
    if s.selectable host partition rows then
      match host.partitionChunks partition rows with
      | .ok chunks => some (s.goOn partition (some ⟨chunks, .encoding⟩))
      | .error _ => some s
    else none
  | .archive partition =>
    (s.archiving partition).map fun archiving =>
      match archiving.todo with
      | chunk :: rest => s.archiveStep host partition chunk rest archiving.stage
      | [] => s.goOn partition none
  | .skipChunk partition =>
    (s.archiving partition).map fun archiving => s.goOn partition (some ⟨archiving.todo.tail, .encoding⟩)
  | .endArchive partition => some (s.goOn partition none)
  | .list tableFilter bucketFilter limit =>
    some { s with sweeps := s.sweeps ++
      [⟨s.listPurgeableChunks host tableFilter bucketFilter limit, .beginning⟩] }
  | .purge j =>
    s.sweeps[j]?.bind fun sweep =>
      match sweep.candidates with
      | candidate :: rest => some (s.purgeStep host j candidate rest sweep.stage)
      | [] => none
  | .skipCandidate j => s.sweeps[j]?.map fun sweep => s.sweepOn j sweep.candidates.tail .beginning
  | .endSweep j => some (s.sweepOn j [] .beginning)

end PurgeState

/-- Archive cycles and sweeps over one database and one bucket of objects, both of which are empty
at first. -/
def purgeSystem {Row : Type} [DecidableEq Row] (host : PurgeHost Row) :
    System (PurgeState Row) (PurgeAction Row) where
  init := {s | s.rows = [] ∧ s.known = [] ∧ s.index = .empty _ ∧ s.data = (fun _ => none) ∧
    s.manifests = (fun _ => none) ∧ s.archiving = (fun _ => none) ∧ s.sweeps = [] ∧ s.committed = []}
  step := PurgeState.step host

end Kici.ColdStore
