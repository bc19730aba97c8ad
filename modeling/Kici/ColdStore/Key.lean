import Kici.Foundation.Escape
import Kici.Js.Json
import Mathlib.Data.List.DropRight

/-!
# Keys of the cold store

The objects of the cold store lie under keys made of the database, the table, the tenant,
the day, the bucket and the id of a chunk, separated by slashes. A tenant is written by
`encodeKeySegment`: every code unit outside `[A-Za-z0-9._:-]` is replaced by an underscore
and its number. The underscore is an allowed unit, so that `kici/eu` and `kici_2feu` are
written alike, and the tenants of these names share their keys (`exists_shared_key`).

A tenant's keys are its own if and only if its name is of allowed units with no escape
written out in it, whatever the other tenants are called (`keysApart_iff_verbatim`).
-/

namespace Kici

open List Foundation JsString Option

/-- `[A-Za-z0-9._:-]` and the underscore, which begins an escape. -/
def keySegmentUnit (c : UInt16) : Bool :=
  (0x41 ≤ c ∧ c ≤ 0x5A) ∨ (0x61 ≤ c ∧ c ≤ 0x7A) ∨ (0x30 ≤ c ∧ c ≤ 0x39) ∨ c ∈ js "._:-"

/-- `_<hex>`, for a code unit. -/
def keySegmentEscape (c : UInt16) : JsString := js "_" ++ hex c.toNat

/-- An S3 path segment, with escapes for the units that may not stand in it. -/
def encodeKeySegment (s : JsString) : JsString := escaped keySegmentUnit keySegmentEscape s

/-- The databases with a cold store. -/
inductive DbKind
  | platform
  | orchestrator

/-- The name of a database in a key. -/
def DbKind.text : DbKind → JsString
  | platform => js "platform"
  | orchestrator => js "orchestrator"

/-- What of a chunk an object holds. -/
inductive ChunkObjectKind
  | data
  | manifest

/-- The end of the keys of a kind. -/
def ChunkObjectKind.suffix : ChunkObjectKind → JsString
  | data => js ".jsonl.gz"
  | manifest => js ".manifest.json"

/-- The arguments of `chunkObjectKey`. -/
@[ext]
structure ChunkKeyArgs where
  keyPrefix : JsString
  db : DbKind
  table : JsString
  tenantId : JsString
  partitionDate : JsString
  chunkId : JsString
  kind : ChunkObjectKind
  bucket : Option JsString

namespace ChunkKeyArgs

def slash : UInt16 := 0x2F

def hyphen : UInt16 := 0x2D

/-- `\d`. -/
def digit (c : UInt16) : Bool := 0x30 ≤ c ∧ c ≤ 0x39

/-- `^\d{4}-\d{2}-\d{2}$`. -/
def isPartitionDate : JsString → Bool
  | [y₁, y₂, y₃, y₄, h₁, m₁, m₂, h₂, d₁, d₂] =>
    [y₁, y₂, y₃, y₄, m₁, m₂, d₁, d₂].all digit && h₁ == hyphen && h₂ == hyphen
  | _ => false

/-- The year, the month and the day of a date: `partitionDate.split('-')`. -/
def dateParts (partitionDate : JsString) : List JsString :=
  [partitionDate.take 4, (partitionDate.drop 5).take 2, partitionDate.drop 8]

/-- `^[a-z0-9]+$`. -/
def isBucketSegment (s : JsString) : Bool :=
  s ≠ [] && s.all fun c => (0x61 ≤ c ∧ c ≤ 0x7A) || digit c

/-- `<prefix>/<db>/<table>`, for a prefix without the slashes at its end. -/
def tablePrefix (keyPrefix : JsString) (db : DbKind) (table : JsString) : JsString :=
  keyPrefix.rdropWhile (· == slash) ++ js "/" ++ db.text ++ js "/" ++ table

variable (args : ChunkKeyArgs)

/-- The prefix under which the objects of a tenant are listed, to be read, replayed or purged. -/
def tenantPrefix : JsString :=
  tablePrefix args.keyPrefix args.db args.table ++ js "/" ++ encodeKeySegment args.tenantId ++ js "/"

/-- The prefix of the objects of a tenant's day. -/
def tenantDayPrefix : Except JsString JsString :=
  if isPartitionDate args.partitionDate then
    .ok (tablePrefix args.keyPrefix args.db args.table ++ js "/" ++ encodeKeySegment args.tenantId ++
      (dateParts args.partitionDate).flatMap (js "/" ++ ·))
  else .error (js "partitionDate must be YYYY-MM-DD, got " ++ stringify args.partitionDate)

/-- The prefix of the objects of a bucket of a tenant's day. -/
def tenantDayBucketPrefix (bucket : JsString) : Except JsString JsString :=
  if isBucketSegment bucket then return (← args.tenantDayPrefix) ++ js "/" ++ bucket
  else .error (js "bucket must match ^[a-z0-9]+$, got " ++ stringify bucket)

/-- The directory of a chunk. An empty bucket counts as none. -/
def directory : Except JsString JsString :=
  match args.bucket with
  | none | some [] => args.tenantDayPrefix
  | some bucket => args.tenantDayBucketPrefix bucket

/-- The key of a chunk, or of its manifest. -/
def chunkObjectKey : Except JsString JsString :=
  return (← args.directory) ++ js "/" ++ args.chunkId ++ args.kind.suffix

/-- Arguments as the cold store makes them: the date and the bucket are valid, the table is the name
of one and the chunk id a hash, in which no slash stands. -/
structure Valid : Prop where
  partitionDate : isPartitionDate args.partitionDate
  bucket : ∀ b ∈ args.bucket, isBucketSegment b
  table : slash ∉ args.table
  chunkId : slash ∉ args.chunkId

/-- The objects of the arguments are apart from those of all others of the same store: the tenant is
written as no other is, no other arguments have the key, and no listing of another tenant holds the
key, nor the listing of this tenant the key of another. -/
structure KeysApart : Prop where
  segment : ∀ s, encodeKeySegment s = encodeKeySegment args.tenantId → s = args.tenantId
  key : ∀ other : ChunkKeyArgs, other.Valid → other.keyPrefix = args.keyPrefix →
    other.chunkObjectKey = args.chunkObjectKey → other = args
  listed : ∀ lister : ChunkKeyArgs, lister.Valid → lister.keyPrefix = args.keyPrefix →
    lister.tenantId ≠ args.tenantId → ∀ key, args.chunkObjectKey = .ok key →
      ¬ key.startsWith lister.tenantPrefix
  listing : ∀ other : ChunkKeyArgs, other.Valid → other.keyPrefix = args.keyPrefix →
    other.tenantId ≠ args.tenantId → ∀ key, other.chunkObjectKey = .ok key →
      ¬ key.startsWith args.tenantPrefix

end ChunkKeyArgs

/-! ## Segments -/

/-- The digits of a number are hexadecimal digits. -/
theorem mem_toDigits {n : ℕ} : ∀ d ∈ Nat.toDigits 16 n, ∃ k < 16, d = Nat.digitChar k := by
  induction n using Nat.strongRecOn with
  | ind n ih =>
    intro d hd
    rw [Nat.toDigits_eq_if (by decide)] at hd
    split at hd
    case isTrue hlt => exact ⟨n, hlt, mem_singleton.1 hd⟩
    case isFalse hge =>
      rcases mem_append.1 hd with hd | hd
      · exact ih (n / 16) (by omega) d hd
      · exact ⟨n % 16, Nat.mod_lt n (by decide), mem_singleton.1 hd⟩

/-- An escape may stand in a segment. -/
theorem keySegmentUnit_of_mem_escape {c b : UInt16} (h : b ∈ keySegmentEscape c) : keySegmentUnit b := by
  rcases mem_append.1 h with h | h
  · exact all_eq_true.1 (by decide : (js "_").all keySegmentUnit) b h
  · obtain ⟨d, hd, hb⟩ := mem_flatMap.1 h
    obtain ⟨k, hk, rfl⟩ := mem_toDigits d hd
    have hdigits : ∀ k < 16, (codeUnits (Nat.digitChar k)).all keySegmentUnit := by decide
    exact all_eq_true.1 (hdigits k hk) b hb

theorem slash_not_mem_encodeKeySegment {s : JsString} : ChunkKeyArgs.slash ∉ encodeKeySegment s :=
  fun h =>
  absurd (allowed_of_mem_escaped (fun _ _ _ => keySegmentUnit_of_mem_escape) h) (by decide)

namespace ChunkKeyArgs

variable {args other lister : ChunkKeyArgs} {key s : JsString}

theorem slash_not_mem_of_isBucketSegment (h : isBucketSegment s) : slash ∉ s := by
  intro hs
  have hall := (Bool.and_eq_true_iff.1 h).2
  exact absurd (all_eq_true.1 hall slash hs) (by decide)

/-- A date is its parts with hyphens between them, in which no slash stands. -/
theorem eq_of_isPartitionDate (h : isPartitionDate s) :
    s = [hyphen].intercalate (dateParts s) ∧ ∀ part ∈ dateParts s, slash ∉ part := by
  rw [isPartitionDate.eq_def] at h
  split at h
  case h_1 y₁ y₂ y₃ y₄ h₁ m₁ m₂ h₂ d₁ d₂ =>
    simp only [Bool.and_eq_true, beq_iff_eq] at h
    obtain ⟨⟨hdigits, rfl⟩, rfl⟩ := h
    refine ⟨rfl, fun part hpart hslash => ?_⟩
    have hmem : slash ∈ [y₁, y₂, y₃, y₄, m₁, m₂, d₁, d₂] := by
      simp only [dateParts, mem_cons, not_mem_nil, or_false] at hpart
      rcases hpart with rfl | rfl | rfl
      · exact mem_append_left [m₁, m₂, d₁, d₂] hslash
      · exact mem_append_left [d₁, d₂] (mem_append_right [y₁, y₂, y₃, y₄] hslash)
      · exact mem_append_right [y₁, y₂, y₃, y₄, m₁, m₂] hslash
    exact absurd (all_eq_true.1 hdigits slash hmem) (by decide)
  case h_2 => cases h

/-- The segments of a key below the prefix of the store. -/
def segments (args : ChunkKeyArgs) : List JsString :=
  [args.db.text, args.table, encodeKeySegment args.tenantId] ++ dateParts args.partitionDate ++
    args.bucket.toList ++ [args.chunkId ++ args.kind.suffix]

theorem slash_not_mem_segments (h : args.Valid) : ∀ u ∈ args.segments, slash ∉ u := by
  intro u hu
  simp only [segments, mem_append, mem_cons, not_mem_nil, or_false, mem_toList] at hu
  rcases hu with (((rfl | rfl | rfl) | hpart) | hbucket) | rfl
  · cases args.db <;> decide
  · exact h.table
  · exact slash_not_mem_encodeKeySegment
  · exact (eq_of_isPartitionDate h.partitionDate).2 u hpart
  · exact slash_not_mem_of_isBucketSegment (h.bucket u hbucket)
  · intro hslash
    rcases mem_append.1 hslash with hid | hsuffix
    · exact h.chunkId hid
    · cases hkind : args.kind <;> rw [hkind] at hsuffix <;> exact absurd hsuffix (by decide)

/-- The prefix of a tenant's day is a path. -/
theorem tenantDayPrefix_eq (h : args.Valid) : args.tenantDayPrefix =
    .ok (args.keyPrefix.rdropWhile (· == slash) ++ pathOf slash ([args.db.text, args.table,
      encodeKeySegment args.tenantId] ++ dateParts args.partitionDate)) := by
  rw [tenantDayPrefix, if_pos h.partitionDate, tablePrefix]
  simp only [pathOf, flatMap_append, flatMap_cons, flatMap_nil, append_nil, append_assoc]
  rfl

/-- The key of valid arguments is the path of their segments. -/
theorem chunkObjectKey_eq (h : args.Valid) :
    args.chunkObjectKey = .ok
    (args.keyPrefix.rdropWhile (· == slash) ++ pathOf slash args.segments) := by
  have hsegments : pathOf slash args.segments = pathOf slash ([args.db.text, args.table,
      encodeKeySegment args.tenantId] ++ dateParts args.partitionDate) ++
        pathOf slash args.bucket.toList ++
        js "/" ++ args.chunkId ++ args.kind.suffix := by
    simp only [segments, pathOf, flatMap_append, flatMap_cons, flatMap_nil, append_nil,
      append_assoc]
    rfl
  rw [hsegments, chunkObjectKey, directory]
  cases hbucket : args.bucket with
  | none =>
    rw [tenantDayPrefix_eq h]
    simp [pathOf]
  | some bucket =>
    have hsegment := h.bucket bucket hbucket
    cases bucket with
    | nil => cases hsegment
    | cons c bucket =>
      simp only [tenantDayBucketPrefix.eq_def, if_pos hsegment, tenantDayPrefix_eq h]
      simp [pathOf]
      rfl

/-- The prefix of a tenant goes on from a path with a slash. -/
theorem tenantPrefix_eq : args.tenantPrefix = args.keyPrefix.rdropWhile (· == slash) ++
    (pathOf slash [args.db.text, args.table, encodeKeySegment args.tenantId] ++ [slash]) := by
  simp only [tenantPrefix, tablePrefix, pathOf, flatMap_cons, flatMap_nil, append_nil,
    append_assoc]
  rfl

/-! ## Keys that are apart -/

theorem text_injective {db db' : DbKind} (h : db.text = db'.text) : db = db' := by
  cases db <;> cases db'
  case platform.platform | orchestrator.orchestrator => rfl
  case platform.orchestrator | orchestrator.platform => exact absurd h (by decide)

/-- A file name gives the chunk and the kind of the object. -/
theorem eq_of_append_suffix {id id' : JsString} {kind kind' : ChunkObjectKind}
    (h : id ++ kind.suffix = id' ++ kind'.suffix) : id = id' ∧ kind = kind' := by
  have hlast := congrArg getLast? h
  rw [getLast?_append, getLast?_append] at hlast
  cases kind <;> cases kind'
  case data.data | manifest.manifest => exact ⟨append_cancel_right h, rfl⟩
  -- The ends differ in their last letters.
  case data.manifest => exact absurd (some.inj hlast) (by decide)
  case manifest.data => exact absurd (some.inj hlast) (by decide)

/-- The segments of valid arguments give the arguments, but for a tenant that is written the same. -/
theorem eq_of_segments_eq (hother : other.Valid) (hargs : args.Valid)
    (hstore : other.keyPrefix = args.keyPrefix)
    (htenant : encodeKeySegment other.tenantId = encodeKeySegment args.tenantId →
      other.tenantId = args.tenantId)
    (h : other.segments = args.segments) : other = args := by
  obtain ⟨hdirectory, hfile⟩ := append_inj' h rfl
  obtain ⟨hday, hbucket⟩ := append_inj hdirectory rfl
  obtain ⟨hhead, hdate⟩ := append_inj hday rfl
  simp only [cons.injEq, and_true] at hhead hfile
  obtain ⟨hdb, htable, hsegment⟩ := hhead
  obtain ⟨hid, hkind⟩ := eq_of_append_suffix hfile
  refine ChunkKeyArgs.ext hstore (text_injective hdb) htable (htenant hsegment) ?_ hid hkind ?_
  · rw [(eq_of_isPartitionDate hother.partitionDate).1, hdate,
      ← (eq_of_isPartitionDate hargs.partitionDate).1]
  · exact ext fun b => by rw [← mem_toList, hbucket, mem_toList]

/-- Keys of one store are those of the same segments. -/
theorem segments_eq_of_chunkObjectKey_eq (hother : other.Valid) (hargs : args.Valid)
    (hstore : other.keyPrefix = args.keyPrefix) (h : other.chunkObjectKey = args.chunkObjectKey) :
    other.segments = args.segments := by
  rw [chunkObjectKey_eq hother, chunkObjectKey_eq hargs, hstore, Except.ok.injEq] at h
  exact pathOf_injective (slash_not_mem_segments hother) (slash_not_mem_segments hargs)
    (append_cancel_left h)

/-- A key that is listed for a tenant has its segment. -/
theorem segment_eq_of_startsWith (hlister : lister.Valid) (hargs : args.Valid)
    (hstore : lister.keyPrefix = args.keyPrefix) (hkey : args.chunkObjectKey = .ok key)
    (h : startsWith key lister.tenantPrefix) :
    encodeKeySegment lister.tenantId = encodeKeySegment args.tenantId := by
  rw [chunkObjectKey_eq hargs, Except.ok.injEq] at hkey
  obtain ⟨rest, hrest⟩ := of_decide_eq_true h
  rw [← hkey, tenantPrefix_eq, hstore, append_assoc, append_assoc] at hrest
  have hheads : [lister.db.text, lister.table, encodeKeySegment lister.tenantId] <+: args.segments :=
    prefix_of_pathOf (fun u hu => slash_not_mem_segments hlister u
      (mem_append_left _ (mem_append_left _ (mem_append_left _ hu)))) (slash_not_mem_segments hargs)
      (append_cancel_left hrest)
  obtain ⟨tail, htail⟩ := hheads
  simp only [segments, cons_append, cons.injEq] at htail
  exact htail.2.2.1

/-- A tenant's keys are apart from those of all others if and only if its name has the allowed units
only, and no escape is written out in it. -/
theorem keysApart_iff_verbatim (h : args.Valid) :
    args.KeysApart ↔ Verbatim keySegmentUnit keySegmentEscape args.tenantId := by
  have hescape : ∀ c, ¬ keySegmentUnit c → ∀ b ∈ keySegmentEscape c, keySegmentUnit b :=
    fun _ _ _ => keySegmentUnit_of_mem_escape
  refine ⟨fun hapart => (verbatim_iff hescape).2 hapart.segment, fun hverbatim => ?_⟩
  have hsegment := (verbatim_iff hescape).1 hverbatim
  refine ⟨hsegment, fun other hother hstore hkey => ?_,
    fun lister hlister hstore htenant key hkey hlisted => ?_,
    fun other hother hstore htenant key hkey hlisted => ?_⟩
  · exact eq_of_segments_eq hother h hstore (hsegment other.tenantId)
      (segments_eq_of_chunkObjectKey_eq hother h hstore hkey)
  · exact htenant (hsegment _ (segment_eq_of_startsWith hlister h hstore hkey hlisted))
  · exact htenant (hsegment _ (segment_eq_of_startsWith h hother hstore.symm hkey hlisted).symm)

/-- A name of allowed units without an underscore is verbatim. -/
theorem verbatim_of_not_mem (h : s.all keySegmentUnit) (hunderscore : 0x5F ∉ s) :
    Verbatim keySegmentUnit keySegmentEscape s :=
  ⟨all_eq_true.1 h, fun _ _ hwritten => hunderscore (hwritten.subset mem_cons_self)⟩

/-- The data of a chunk of a tenant. -/
def ofTenant (tenantId : JsString) : ChunkKeyArgs where
  keyPrefix := js "cold-store/"
  db := .platform
  table := js "run_events"
  tenantId
  partitionDate := js "2026-04-24"
  chunkId := js "abcdef0123456789"
  kind := .data
  bucket := some (js "30d")

theorem valid_ofTenant (tenantId : JsString) : (ofTenant tenantId).Valid where
  partitionDate := (by decide : isPartitionDate (js "2026-04-24"))
  bucket := by rintro b ⟨⟩; decide
  table := (by decide : slash ∉ js "run_events")
  chunkId := (by decide : slash ∉ js "abcdef0123456789")

theorem keysApart_acme : (ofTenant (js "acme.eu:1")).KeysApart :=
  (keysApart_iff_verbatim (valid_ofTenant _)).2 (verbatim_of_not_mem (by decide) (by decide))

/-- Two tenants with one key, which each of them lists. -/
theorem exists_shared_key : ∃ args other : ChunkKeyArgs, args.Valid ∧ other.Valid ∧
    other.keyPrefix = args.keyPrefix ∧ args.tenantId ≠ other.tenantId ∧
    encodeKeySegment args.tenantId = encodeKeySegment other.tenantId ∧
    ∃ key, args.chunkObjectKey = .ok key ∧ other.chunkObjectKey = .ok key ∧
      startsWith key args.tenantPrefix ∧ startsWith key other.tenantPrefix :=
  ⟨ofTenant (js "kici/eu"), ofTenant (js "kici_2feu"), valid_ofTenant _, valid_ofTenant _,
    rfl, by decide, by decide,
    js "cold-store/platform/run_events/kici_2feu/2026/04/24/30d/abcdef0123456789.jsonl.gz",
    by decide, by decide, by decide, by decide⟩

end ChunkKeyArgs
end Kici
