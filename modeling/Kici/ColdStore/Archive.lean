import Kici.ColdStore.ReadRun

/-!
# An archive

An archive is a set of chunks as they were written (`Archive`), each with rows of its own day and
under keys of its own. The keys of the manifests under a tenant's prefix are those of the chunks
whose tenant is encoded like it (`manifestKeys_eq`), and of these a read fetches those with a day in
the range (`candidateKeys_eq`). No load of them fails (`Archive.intact`).
-/

namespace Kici.ColdStore

open List ChunkKeyArgs ChunkObjectKind Foundation

/-- A chunk that was archived; it has a row. -/
structure ArchivedChunk (Row : Type) where
  tenantId : JsString
  partitionDate : JsString
  bucket : Option JsString
  chunkId : JsString
  first : Row
  rest : List Row

namespace ArchivedChunk

variable {Row Body : Type} (host : ReadHost Row Body) (store : TableStore) (chunk : ArchivedChunk Row)

def rows : List Row := chunk.first :: chunk.rest

def keyArgs (kind : ChunkObjectKind) : ChunkKeyArgs :=
  store.keyArgs chunk.tenantId chunk.partitionDate chunk.bucket chunk.chunkId kind

/-- The key of an object of the chunk, where its arguments are valid. -/
def key (kind : ChunkObjectKind) : JsString :=
  match (chunk.keyArgs store kind).chunkObjectKey with
  | .ok key => key
  | .error _ => []

def encoded : EncodedChunk Body := encodeRows host.codec host.adapter chunk.first chunk.rest

def manifest : ChunkManifest :=
  manifestOf chunk.tenantId chunk.partitionDate chunk.bucket chunk.chunkId (chunk.encoded host)

end ArchivedChunk

/-- Chunks under keys of their own, each with rows of its own UTC day. -/
structure Archive {Row Body : Type} (host : ReadHost Row Body) (store : TableStore) where
  chunks : List (ArchivedChunk Row)
  valid : ∀ chunk ∈ chunks, (chunk.keyArgs store .data).Valid
  day : ∀ chunk ∈ chunks, ∀ row ∈ chunk.rows,
    utcDay (host.adapter.rowTimestamp row) = chunk.partitionDate
  apart : (chunks.map (·.key store .data)).Nodup

variable {Row Body : Type} {host : ReadHost Row Body} {store : TableStore}

namespace Archive

/-- What is stored for the archive. -/
def objects (archive : Archive host store) : ObjectStore Body where
  manifests := archive.chunks.map fun chunk => (chunk.key store .manifest, chunk.manifest host)
  bodies := archive.chunks.map fun chunk => (chunk.key store .data, (chunk.encoded host).data)

/-- A row is archived for a tenant. -/
def Archived (archive : Archive host store) (tenantId : JsString) (row : Row) : Prop :=
  ∃ chunk ∈ archive.chunks, chunk.tenantId = tenantId ∧ row ∈ chunk.rows

end Archive

/-! ## Keys -/

section
variable {archive : Archive host store} {chunk : ArchivedChunk Row} {args : FetchRangeArgs}
  {kind : ChunkObjectKind}

theorem valid_kind (h : (chunk.keyArgs store .data).Valid) (kind : ChunkObjectKind) :
    (chunk.keyArgs store kind).Valid := ⟨h.partitionDate, h.bucket, h.table, h.chunkId⟩

theorem chunkObjectKey_of_valid (h : (chunk.keyArgs store .data).Valid) (kind : ChunkObjectKind) :
    (chunk.keyArgs store kind).chunkObjectKey = .ok (chunk.key store kind) := by
  rw [ArchivedChunk.key, chunkObjectKey_eq (valid_kind h kind)]

theorem key_eq (h : (chunk.keyArgs store .data).Valid) (kind : ChunkObjectKind) : chunk.key store kind =
    store.keyPrefix.rdropWhile (· == slash) ++
      pathOf slash (chunk.keyArgs store kind).segments := by
  rw [ArchivedChunk.key, chunkObjectKey_eq (valid_kind h kind)]
  rfl

/-- A day below a tenant, as it stands in keys. -/
def dayPath (partitionDate : JsString) : JsString :=
  [slash].intercalate (dateParts partitionDate)

theorem daySegment_dayPath {partitionDate : JsString} (h : isPartitionDate partitionDate)
    (tail : JsString) :
    daySegment (dayPath partitionDate ++ slash :: tail) = some partitionDate := by
  rw [isPartitionDate.eq_def] at h
  split at h
  case h_1 y₁ y₂ y₃ y₄ h₁ m₁ m₂ h₂ d₁ d₂ =>
    simp only [Bool.and_eq_true, beq_iff_eq] at h
    obtain ⟨⟨hdigits, rfl⟩, rfl⟩ := h
    have hslashes :
        [slash, slash, slash].all (· = slash) := by decide
    exact if_pos ⟨hdigits, hslashes⟩
  case h_2 => cases h

/-- A key goes on from the prefix of a tenant that is encoded like its own, with the day. -/
theorem key_eq_append (kind : ChunkObjectKind) (h : (chunk.keyArgs store .data).Valid)
    {tenantId : JsString} (halike : encodeKeySegment chunk.tenantId = encodeKeySegment tenantId) :
    ∃ tail, chunk.key store kind =
      store.tenantPrefix tenantId ++ (dayPath chunk.partitionDate ++ slash :: tail) := by
  have hpath : ∀ (u v w file : JsString) (us : List JsString), ∃ tail,
      pathOf slash ([u, v, w] ++ (us ++ [file])) =
        [slash] ++ ([slash].intercalate [u, v, w] ++ slash :: tail) := by
    intro u v w file us
    cases us with
    | nil => exact ⟨file, by simp [pathOf, intercalate]⟩
    | cons x us =>
      exact ⟨x ++ pathOf slash (us ++ [file]), by simp [pathOf, intercalate]⟩
  obtain ⟨tail, htail⟩ := hpath (chunk.partitionDate.take 4) ((chunk.partitionDate.drop 5).take 2)
    (chunk.partitionDate.drop 8) (chunk.chunkId ++ kind.suffix) chunk.bucket.toList
  refine ⟨tail, ?_⟩
  have hsegments : (chunk.keyArgs store kind).segments =
    [store.db.text, store.table, encodeKeySegment tenantId] ++
      ([chunk.partitionDate.take 4, (chunk.partitionDate.drop 5).take 2, chunk.partitionDate.drop 8] ++
        (chunk.bucket.toList ++ [chunk.chunkId ++ kind.suffix])) := by
    rw [← halike]
    simp only [segments, append_assoc]
    rfl
  rw [key_eq h, hsegments, pathOf, flatMap_append, ← pathOf, ← pathOf, htail,
    TableStore.tenantPrefix, tenantPrefix_eq]
  simp only [append_assoc]
  rfl

/-- The keys under a tenant's prefix are those of tenants that are encoded like it. -/
theorem startsWith_tenantPrefix_iff (h : (chunk.keyArgs store .data).Valid) {tenantId : JsString} :
    (chunk.key store kind).startsWith (store.tenantPrefix tenantId) ↔
      encodeKeySegment chunk.tenantId = encodeKeySegment tenantId := by
  refine ⟨fun hstarts => ?_, fun halike => ?_⟩
  · have hlister : (store.keyArgs tenantId chunk.partitionDate chunk.bucket chunk.chunkId kind).Valid :=
      ⟨h.partitionDate, h.bucket, h.table, h.chunkId⟩
    exact (segment_eq_of_startsWith hlister (valid_kind h kind) rfl (chunkObjectKey_of_valid h kind)
      hstarts).symm
  · obtain ⟨tail, htail⟩ := key_eq_append kind h halike
    rw [htail]
    exact decide_eq_true (prefix_append _ _)

/-- A key ends like the objects of its kind. -/
theorem endsWith_manifest_iff (h : (chunk.keyArgs store .data).Valid) :
    (chunk.key store kind).endsWith manifest.suffix ↔ kind = .manifest := by
  have hsuffix : kind.suffix <:+ chunk.key store kind := by
    rw [key_eq h, segments, pathOf, flatMap_append, flatMap_singleton]
    exact (suffix_append chunk.chunkId _).trans ((suffix_cons _ _).trans (suffix_append _ _)) |>.trans
      (suffix_append _ _)
  refine ⟨fun hends => ?_, fun hkind => decide_eq_true (hkind ▸ hsuffix)⟩
  obtain ⟨start, hstart⟩ := of_decide_eq_true hends
  obtain ⟨start', hstart'⟩ := hsuffix
  exact (eq_of_append_suffix (hstart'.trans hstart.symm)).2

/-- The keys of manifests are apart as those of bodies are. -/
theorem nodup_keys (archive : Archive host store) (kind : ChunkObjectKind) :
    (archive.chunks.map (·.key store kind)).Nodup := by
  refine Nodup.map_on (fun chunk hchunk other hother heq => ?_) archive.apart.of_map
  refine inj_on_of_nodup_map archive.apart hchunk hother ?_
  have hvalid := archive.valid chunk hchunk
  have hvalid' := archive.valid other hother
  have hsegments := segments_eq_of_chunkObjectKey_eq (valid_kind hvalid kind)
    (valid_kind hvalid' kind) rfl
    (by rw [chunkObjectKey_of_valid hvalid, chunkObjectKey_of_valid hvalid', heq])
  -- The segments of a body are those of the manifest but for the ends of the files.
  obtain ⟨hdirectory, hfile⟩ := append_inj' hsegments rfl
  have hid : chunk.chunkId = other.chunkId := append_cancel_right (cons.inj hfile).1
  have hdata : (chunk.keyArgs store .data).segments = (other.keyArgs store .data).segments :=
    congrArg₂ (· ++ ·) hdirectory (congrArg (fun id => [id ++ data.suffix]) hid)
  rw [key_eq hvalid, key_eq hvalid', hdata]

/-! ## What is listed -/

/-- The tenant of a chunk is encoded like the one of a read. -/
def encodedAlike (args : FetchRangeArgs) (chunk : ArchivedChunk Row) : Bool :=
  encodeKeySegment chunk.tenantId = encodeKeySegment args.tenantId

/-- The day of a chunk is in the range as a read tells it. -/
def dayListed (args : FetchRangeArgs) (chunk : ArchivedChunk Row) : Bool :=
  (utcDay args.fromTs).Before (utcDay (args.toTs - 1)) ∧
    (utcDay args.fromTs).Before chunk.partitionDate ∧
    chunk.partitionDate.Before (utcDay (args.toTs - 1))

theorem manifestKeys_eq (archive : Archive host store) (args : FetchRangeArgs) :
    manifestKeys store archive.objects args =
      (archive.chunks.filter (encodedAlike args)).map (·.key store .manifest) := by
  have hkeys : archive.objects.keys =
      archive.chunks.map (·.key store .manifest) ++ archive.chunks.map (·.key store .data) := by
    rw [ObjectStore.keys, Archive.objects, map_map, map_map]
    rfl
  have hmanifests : (archive.chunks.map (·.key store .manifest)).filter (fun key =>
      key.startsWith (store.tenantPrefix args.tenantId) && key.endsWith manifest.suffix) =
        (archive.chunks.filter (encodedAlike args)).map (·.key store .manifest) := by
    rw [filter_map]
    refine congrArg (map _) (filter_congr fun chunk hmem => ?_)
    have hvalid := archive.valid chunk hmem
    rw [Function.comp_apply, (endsWith_manifest_iff hvalid).2 rfl, Bool.and_true, encodedAlike,
      Bool.eq_iff_iff, startsWith_tenantPrefix_iff hvalid, decide_eq_true_eq]
  have hbodies : (archive.chunks.map (·.key store .data)).filter (fun key =>
      key.startsWith (store.tenantPrefix args.tenantId) && key.endsWith manifest.suffix) = [] := by
    refine filter_eq_nil_iff.2 fun key hkey hboth => ?_
    obtain ⟨chunk, hmem, rfl⟩ := mem_map.1 hkey
    cases (endsWith_manifest_iff (archive.valid chunk hmem)).1 (Bool.and_eq_true_iff.1 hboth).2
  rw [manifestKeys, hkeys, filter_append, hmanifests, hbodies, append_nil]

theorem candidateKeys_eq (archive : Archive host store) (args : FetchRangeArgs) :
    candidateKeys store archive.objects args =
      (archive.chunks.filter fun chunk => encodedAlike args chunk && dayListed args chunk).map
        (·.key store .manifest) := by
  rw [candidateKeys, manifestKeys_eq]
  split
  next hdays =>
    rw [filter_map, filter_filter]
    refine congrArg (map _) (filter_congr fun chunk hmem => ?_)
    have hvalid := archive.valid chunk hmem
    rw [Bool.and_comm]
    cases halike : encodedAlike args chunk with
    | false => rfl
    | true =>
      obtain ⟨tail, htail⟩ := key_eq_append .manifest hvalid (of_decide_eq_true halike)
      have hdate : isPartitionDate chunk.partitionDate := hvalid.partitionDate
      rw [Function.comp_apply, dayInRange, htail, drop_left, daySegment_dayPath hdate, dayListed]
      simp [hdays]
  next hdays =>
    have hnone : (archive.chunks.filter fun chunk =>
      encodedAlike args chunk && dayListed args chunk) = [] := by
      refine filter_eq_nil_iff.2 fun chunk _ hboth => ?_
      exact hdays (of_decide_eq_true (Bool.and_eq_true_iff.1 hboth).2).1
    rw [hnone]
    rfl

/-! ## What is loaded -/

theorem lookup_map {α : Type} {chunks : List (ArchivedChunk Row)} {f : ArchivedChunk Row → JsString}
    (g : ArchivedChunk Row → α) (hnodup : (chunks.map f).Nodup) (hmem : chunk ∈ chunks) :
    ObjectStore.lookup (chunks.map fun chunk => (f chunk, g chunk)) (f chunk) = some (g chunk) := by
  induction chunks with
  | nil => cases hmem
  | cons first chunks ih =>
    obtain ⟨hnew, hnodup⟩ := nodup_cons.1 (show (f first :: chunks.map f).Nodup from hnodup)
    rw [ObjectStore.lookup, map_cons, find?_cons]
    rcases mem_cons.1 hmem with rfl | hmem
    · rw [decide_eq_true rfl]
      rfl
    · have hne : f first ≠ f chunk := fun heq => hnew (heq ▸ mem_map_of_mem hmem)
      rw [decide_eq_false hne]
      exact ih hnodup hmem

theorem getManifest_key (archive : Archive host store) (hmem : chunk ∈ archive.chunks) :
    getManifest archive.objects (chunk.key store .manifest) = .ok (chunk.manifest host) := by
  rw [getManifest, Archive.objects]
  dsimp only
  rw [lookup_map (fun chunk => chunk.manifest host) (nodup_keys archive .manifest) hmem]

/-- A chunk whose tenant is encoded like that of a read gives its rows of the range. -/
theorem loadChunk_manifest (archive : Archive host store) (hmem : chunk ∈ archive.chunks)
    (halike : encodedAlike args chunk) :
    loadChunk host store archive.objects args (chunk.manifest host) = .ok
    (chunk.rows.filter (inRange host args)) := by
  have hvalid := archive.valid chunk hmem
  have hreader : (store.keyArgs args.tenantId chunk.partitionDate chunk.bucket chunk.chunkId
    .data).Valid :=
    ⟨hvalid.partitionDate, hvalid.bucket, hvalid.table, hvalid.chunkId⟩
  have hkey : (store.keyArgs args.tenantId chunk.partitionDate chunk.bucket chunk.chunkId
    .data).chunkObjectKey =
      .ok (chunk.key store .data) := by
    rw [chunkObjectKey_eq hreader, key_eq hvalid]
    have hsegments : (store.keyArgs args.tenantId chunk.partitionDate chunk.bucket chunk.chunkId
      .data).segments =
        (chunk.keyArgs store .data).segments := by
      simp only [segments, TableStore.keyArgs, ArchivedChunk.keyArgs]
      rw [(of_decide_eq_true halike : encodeKeySegment chunk.tenantId = encodeKeySegment args.tenantId)]
    rw [hsegments]
    rfl
  have hdata : getChunkData host archive.objects (chunk.key store .data)
    (chunk.manifest host).contentHash =
      .ok (chunk.encoded host).data := by
    rw [getChunkData, Archive.objects]
    dsimp only
    rw [lookup_map (fun chunk => (chunk.encoded host).data) (nodup_keys archive .data) hmem]
    exact if_neg (not_not_intro rfl)
  rw [loadChunk, ArchivedChunk.manifest, manifestOf]
  dsimp only
  rw [hkey]
  dsimp only
  rw [show (chunk.encoded host).contentHash = (chunk.manifest host).contentHash from rfl, hdata]
  exact congrArg (fun rows => Except.ok (rows.filter (inRange host args)))
    (host.codec.decode_encode chunk.rows)

end

end Kici.ColdStore
