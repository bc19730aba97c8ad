import Kici.ColdStore.Key
import Kici.Js.Date

/-!
# Chunks of the cold store

Rows of a table are archived in chunks: the rows of a tenant and a day, in one body (`encodeChunk`),
and a manifest that says what the body holds. A chunk without a bucket lies at the root of its day,
and one with a bucket below it.

The id of a chunk is made of the least and the greatest id of its rows (`computeChunkId`), whatever
the rows hold.
-/

namespace Kici.ColdStore

/-! ## Rows -/

inductive RowId
  | number (n : ℤ)
  | text (s : JsString)
  deriving DecidableEq

/-- `String(id)`. -/
def RowId.toText : RowId → JsString
  | number n => js (toString n)
  | text s => s

/-- `compareRowIds(a, b) < 0`: numbers as numbers, and all else as texts. -/
def RowId.Less : RowId → RowId → Prop
  | number a, number b => a < b
  | a, b => ¬ b.toText.Before a.toText

instance : DecidableRel RowId.Less
  | .number a, .number b => inferInstanceAs (Decidable (a < b))
  | .number a, .text b =>
    inferInstanceAs (Decidable (¬ (RowId.text b).toText.Before (RowId.number a).toText))
  | .text a, .number b =>
    inferInstanceAs (Decidable (¬ (RowId.number b).toText.Before (RowId.text a).toText))
  | .text a, .text b =>
    inferInstanceAs (Decidable (¬ (RowId.text b).toText.Before (RowId.text a).toText))

/-- What the adapter of a table says of a row. -/
structure RowAdapter (Row : Type) where
  rowId : Row → RowId
  /-- The timestamp of its partition column, in milliseconds. -/
  rowTimestamp : Row → ℤ

/-- How bodies are made of rows and read again, and their hashes. -/
structure ChunkCodec (Row Body : Type) where
  encode : List Row → Body
  decode : Body → List Row
  decode_encode : ∀ rows, decode (encode rows) = rows
  sha256 : Body → JsString

/-! ## Bodies and manifests -/

structure EncodedChunk (Body : Type) where
  data : Body
  contentHash : JsString
  rowCount : ℕ
  minRowId : RowId
  maxRowId : RowId
  rowIds : List RowId
  minTimestamp : ℤ
  maxTimestamp : ℤ

section
variable {Row Body : Type} (codec : ChunkCodec Row Body) (adapter : RowAdapter Row)

def minRowId (row : Row) (rows : List Row) : RowId :=
  rows.foldl (fun least row => if (adapter.rowId row).Less least then adapter.rowId row else least)
    (adapter.rowId row)

def maxRowId (row : Row) (rows : List Row) : RowId :=
  rows.foldl (fun greatest row => if greatest.Less (adapter.rowId row) then adapter.rowId row
    else greatest)
    (adapter.rowId row)

def minTimestamp (row : Row) (rows : List Row) : ℤ :=
  rows.foldl (fun least row => min (adapter.rowTimestamp row) least) (adapter.rowTimestamp row)

def maxTimestamp (row : Row) (rows : List Row) : ℤ :=
  rows.foldl (fun greatest row => max (adapter.rowTimestamp row) greatest) (adapter.rowTimestamp row)

def encodeRows (row : Row) (rows : List Row) : EncodedChunk Body where
  data := codec.encode (row :: rows)
  contentHash := codec.sha256 (codec.encode (row :: rows))
  rowCount := (row :: rows).length
  minRowId := minRowId adapter row rows
  maxRowId := maxRowId adapter row rows
  rowIds := (row :: rows).map adapter.rowId
  minTimestamp := minTimestamp adapter row rows
  maxTimestamp := maxTimestamp adapter row rows

def encodeChunk : List Row → Except JsString (EncodedChunk Body)
  | [] => .error (js "encodeChunk: empty row stream; caller must guard against this")
  | row :: rows => .ok (encodeRows codec adapter row rows)

end

/-- A manifest of the first version has no bucket. -/
structure ChunkManifest where
  tenantId : JsString
  partitionDate : JsString
  bucket : Option JsString
  chunkId : JsString
  rowCount : ℕ
  minTimestamp : ℤ
  maxTimestamp : ℤ
  contentHash : JsString

/-- The hash of a text. -/
abbrev TextHash := JsString → JsString

/-- The database, the table, the tenant and the day, and the least and the greatest id of the rows. -/
def computeChunkId (sha256 : TextHash) (db : DbKind) (table tenantId partitionDate : JsString)
    (minRowId maxRowId : RowId) : JsString :=
  (sha256 (JsString.join [db.text, table, tenantId, partitionDate, minRowId.toText, maxRowId.toText]
    (js "|"))).take 16

/-! ## Where chunks lie -/

/-- The store of a table. -/
structure TableStore where
  keyPrefix : JsString
  db : DbKind
  table : JsString

namespace TableStore

variable (store : TableStore)

def keyArgs (tenantId partitionDate : JsString) (bucket : Option JsString) (chunkId : JsString)
    (kind : ChunkObjectKind) : ChunkKeyArgs where
  keyPrefix := store.keyPrefix
  db := store.db
  table := store.table
  tenantId
  partitionDate
  chunkId
  kind
  bucket

/-- The prefix under which all of a tenant is listed. -/
def tenantPrefix (tenantId : JsString) : JsString :=
  (store.keyArgs tenantId [] none [] .manifest).tenantPrefix

end TableStore

/-- The part of a manifest that an encoded chunk gives. -/
def manifestOf {Body : Type} (tenantId partitionDate : JsString) (bucket : Option JsString)
    (chunkId : JsString) (encoded : EncodedChunk Body) : ChunkManifest where
  tenantId
  partitionDate
  bucket
  chunkId
  rowCount := encoded.rowCount
  minTimestamp := encoded.minTimestamp
  maxTimestamp := encoded.maxTimestamp
  contentHash := encoded.contentHash

/-! ### Bounds -/

section
variable {Row : Type} {adapter : RowAdapter Row}

theorem foldl_min_le (adapter : RowAdapter Row) (l : List Row) (t : ℤ) :
    l.foldl (fun least row => min (adapter.rowTimestamp row) least) t ≤ t ∧
      ∀ row ∈ l, l.foldl (fun least row => min (adapter.rowTimestamp row) least) t ≤
      adapter.rowTimestamp row := by
  induction l generalizing t with
  | nil => exact ⟨le_rfl, nofun⟩
  | cons row l ih =>
    obtain ⟨hle, hrows⟩ := ih (min (adapter.rowTimestamp row) t)
    refine ⟨hle.trans (min_le_right _ _), List.forall_mem_cons.2 ⟨hle.trans (min_le_left _ _), hrows⟩⟩

theorem le_foldl_max (adapter : RowAdapter Row) (l : List Row) (t : ℤ) :
    t ≤ l.foldl (fun greatest row => max (adapter.rowTimestamp row) greatest) t ∧
      ∀ row ∈ l,
        adapter.rowTimestamp row ≤ l.foldl
        (fun greatest row => max (adapter.rowTimestamp row) greatest) t := by
  induction l generalizing t with
  | nil => exact ⟨le_rfl, nofun⟩
  | cons row l ih =>
    obtain ⟨hle, hrows⟩ := ih (max (adapter.rowTimestamp row) t)
    refine ⟨(le_max_right _ _).trans hle, List.forall_mem_cons.2 ⟨(le_max_left _ _).trans hle, hrows⟩⟩

/-- The timestamps of the rows are within the bounds of the chunk. -/
theorem timestamp_bounds {Body : Type} (codec : ChunkCodec Row Body) {first row : Row} {rest : List Row}
    (hmem : row ∈ first :: rest) :
    (encodeRows codec adapter first rest).minTimestamp ≤ adapter.rowTimestamp row ∧
      adapter.rowTimestamp row ≤ (encodeRows codec adapter first rest).maxTimestamp := by
  obtain ⟨hmin, hmins⟩ := foldl_min_le adapter rest (adapter.rowTimestamp first)
  obtain ⟨hmax, hmaxs⟩ := le_foldl_max adapter rest (adapter.rowTimestamp first)
  rcases List.mem_cons.1 hmem with rfl | hmem
  · exact ⟨hmin, hmax⟩
  · exact ⟨hmins row hmem, hmaxs row hmem⟩

end

end Kici.ColdStore
