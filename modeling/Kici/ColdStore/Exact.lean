import Kici.ColdStore.Archive
import Kici.Foundation.Lists

/-!
# What a read gives

A read of an archive gives the rows of the range in the chunks of the tenants that are encoded like
its own (`listedRows`), as long as the range ends in a year of four digits; where it ends later, the
text of its last day is before that of its first, and nothing is read. In both cases the rows come
in order.

`readExact_iff` says when these are the archived rows of the tenant, each once.
-/

namespace Kici.ColdStore

open List JsString System ChunkKeyArgs

variable {manifests : List ChunkManifest}
variable {Row Body : Type} {host : ReadHost Row Body} {store : TableStore} {archive : Archive host store}
  {args : FetchRangeArgs} {chunk : ArchivedChunk Row} {row : Row}

/-! ## The chunks that are read -/

/-- The chunks whose manifests are fetched. -/
def fetchedChunks (archive : Archive host store) (args : FetchRangeArgs) : List (ArchivedChunk Row) :=
  archive.chunks.filter fun chunk => encodedAlike args chunk && dayListed args chunk

def fetchedManifests (archive : Archive host store) (args : FetchRangeArgs) : List ChunkManifest :=
  (fetchedChunks archive args).map (·.manifest host)

/-- The rows of the range in the chunks that are listed. -/
def listedRows (archive : Archive host store) (args : FetchRangeArgs) : List Row :=
  (archive.chunks.filter (encodedAlike args)).flatMap fun chunk => chunk.rows.filter (inRange host args)

/-- The last instant of the range is in a year of at most four digits. -/
def EndsEarly (args : FetchRangeArgs) : Prop := utcYear (args.toTs - 1) ≤ 9999

instance : Decidable (EndsEarly args) := inferInstanceAs (Decidable (_ ≤ _))

theorem mem_fetchedChunks (hmem : chunk ∈ fetchedChunks archive args) :
    chunk ∈ archive.chunks ∧ encodedAlike args chunk := by
  obtain ⟨hmem, hboth⟩ := mem_filter.1 hmem
  exact ⟨hmem, (Bool.and_eq_true_iff.1 hboth).1⟩

theorem exists_fetched {manifest : ChunkManifest}
    (hmem : manifest ∈ relevantManifests host args (fetchedManifests archive args)) :
    ∃ chunk ∈ archive.chunks, encodedAlike args chunk ∧ chunk.manifest host = manifest := by
  obtain ⟨hfetched, -⟩ := mem_filter.1 ((host.sortManifests_perm _).mem_iff.1 hmem)
  obtain ⟨chunk, hchunk, heq⟩ := mem_map.1 hfetched
  obtain ⟨hchunk, halike⟩ := mem_fetchedChunks hchunk
  exact ⟨chunk, hchunk, halike, heq⟩

theorem loadedRows_manifest (hmem : chunk ∈ archive.chunks) (halike : encodedAlike args chunk) :
    loadedRows host store archive.objects args (chunk.manifest host) = chunk.rows.filter
    (inRange host args) := by
  rw [loadedRows, loadChunk_manifest archive hmem halike]

/-- No load of a read fails. -/
theorem Archive.intact (archive : Archive host store) (args : FetchRangeArgs) :
    Intact host store archive.objects args (fetchedManifests archive args) := by
  constructor
  · rw [candidateKeys_eq, fetchedManifests, map_map, map_map]
    exact map_congr_left fun chunk hmem => getManifest_key archive (mem_filter.1 hmem).1
  · intro manifest hmem
    obtain ⟨chunk, hchunk, halike, rfl⟩ := exists_fetched hmem
    rw [loadedRows_manifest hchunk halike, loadChunk_manifest archive hchunk halike]

/-- The years of archived rows have four digits. -/
theorem utcYear_row (hmem : chunk ∈ archive.chunks) (hrow : row ∈ chunk.rows) :
    0 ≤ utcYear (host.adapter.rowTimestamp row) ∧ utcYear (host.adapter.rowTimestamp row) ≤ 9999 := by
  obtain ⟨c, rest, hday, -, hearly, hlate⟩ := utcDay_head (host.adapter.rowTimestamp row)
  have hdate : isPartitionDate (c :: rest) := by
    rw [← hday, archive.day chunk hmem row hrow]
    exact (archive.valid chunk hmem).partitionDate
  -- A date begins with a digit, not with a sign.
  have hdigit : digit c := by
    rw [isPartitionDate.eq_def] at hdate
    split at hdate
    next heq =>
      obtain ⟨rfl, -⟩ := cons.inj heq
      simp only [all_cons, Bool.and_eq_true] at hdate
      exact hdate.1.1.1
    next => cases hdate
  constructor
  · refine not_lt.1 fun hlt => ?_
    rw [hearly hlt] at hdigit
    exact absurd hdigit (by decide)
  · refine not_lt.1 fun hlt => ?_
    rw [hlate hlt] at hdigit
    exact absurd hdigit (by decide)

/-- The day of a row of the range is in the range, unless the range ends late. -/
theorem dayListed_iff (hmem : chunk ∈ archive.chunks) (hrow : row ∈ chunk.rows)
    (hrange : inRange host args row) :
    dayListed args chunk ↔ EndsEarly args := by
  obtain ⟨hfrom, hto⟩ := of_decide_eq_true hrange
  obtain ⟨hyear, hyear'⟩ := utcYear_row hmem hrow
  rw [dayListed, decide_eq_true_eq, ← archive.day chunk hmem row hrow]
  constructor
  · rintro ⟨-, -, hbefore⟩
    exact not_lt.1 fun hlate => utcDay_of_late hyear' hlate hbefore
  · intro hearly
    have hfirst : (utcDay args.fromTs).Before (utcDay (host.adapter.rowTimestamp row)) := by
      rcases lt_or_ge (utcYear args.fromTs) 0 with hneg | hpos
      · exact utcDay_of_early hneg hyear hyear'
      · exact utcDay_mono (not_lt.1 hfrom) hpos hyear'
    have hlast : (utcDay (host.adapter.rowTimestamp row)).Before (utcDay (args.toTs - 1)) :=
      utcDay_mono (Int.le_sub_one_of_lt (not_le.1 hto)) hyear hearly
    exact ⟨hfirst.trans hlast, hfirst, hlast⟩

/-- A chunk with a row of the range overlaps it. -/
theorem overlaps_manifest (hrow : row ∈ chunk.rows) (hrange : inRange host args row) :
    overlaps args (chunk.manifest host) := by
  obtain ⟨hfrom, hto⟩ := of_decide_eq_true hrange
  obtain ⟨hmin, hmax⟩ := timestamp_bounds host.codec hrow
  exact decide_eq_true ⟨not_lt.2 ((not_lt.1 hfrom).trans hmax), not_le.2 (hmin.trans_lt (not_le.1 hto))⟩

/-! ## The rows that are read -/

/-- The days of some manifests, each once. -/
theorem nodup_dayOrder (manifests : List ChunkManifest) : (dayOrder args manifests).Nodup := by
  have hdays : ((manifests.map (·.partitionDate)).eraseDups.insertionSort Before).Nodup :=
    (perm_insertionSort _ _).nodup_iff.2 (nodup_eraseDups _)
  rw [dayOrder]
  split
  · exact hdays
  · exact nodup_reverse.2 hdays

theorem mem_dayOrder {day : JsString} :
    day ∈ dayOrder args manifests ↔ ∃ manifest ∈ manifests, manifest.partitionDate = day := by
  have hdays : day ∈ (manifests.map (·.partitionDate)).eraseDups.insertionSort Before ↔
      ∃ manifest ∈ manifests, manifest.partitionDate = day := by
    rw [mem_insertionSort, mem_eraseDups, mem_map]
  rw [dayOrder]
  split
  · exact hdays
  · exact mem_reverse.trans hdays

theorem dayManifests_perm (manifests : List ChunkManifest) (day : JsString) :
    (dayManifests args manifests day).Perm (manifests.filter (·.partitionDate = day)) := by
  rw [dayManifests]
  split
  · exact Perm.refl _
  · exact reverse_perm _

/-- What is read of some manifests, whatever their order. -/
theorem expectedRows_perm (objects : ObjectStore Body) (manifests : List ChunkManifest) :
    (expectedRows host store objects args manifests).Perm
      (manifests.flatMap (loadedRows host store objects args)) := by
  have hday : ∀ day ∈ dayOrder args manifests, (rowsOfDay host store objects args manifests day).Perm
      ((manifests.filter (·.partitionDate = day)).flatMap (loadedRows host store objects args)) := by
    intro day _
    refine (perm_insertionSort _ _).trans ?_
    rw [← flatMap_def]
    exact (dayManifests_perm manifests day).flatMap_right _
  have hgroups :
      ((dayOrder args manifests).flatMap fun day => manifests.filter (·.partitionDate = day)).Perm
        manifests :=
    perm_flatMap_filter _ (nodup_dayOrder manifests) fun manifest hmem =>
      mem_dayOrder.2 ⟨manifest, hmem, rfl⟩
  rw [expectedRows]
  refine (Perm.flatMap_left _ hday).trans ?_
  rw [← flatMap_assoc]
  exact hgroups.flatMap_right _

/-- The rows of the chunks that are fetched. -/
theorem flatMap_relevantManifests (archive : Archive host store) (args : FetchRangeArgs) :
    ((relevantManifests host args (fetchedManifests archive args)).flatMap
      (loadedRows host store archive.objects args)).Perm
        ((fetchedChunks archive args).flatMap fun chunk => chunk.rows.filter (inRange host args)) := by
  have hloaded : ((fetchedChunks archive args).filter fun chunk =>
    overlaps args (chunk.manifest host)).flatMap
      (fun chunk => loadedRows host store archive.objects args (chunk.manifest host)) =
        (fetchedChunks archive args).flatMap fun chunk => chunk.rows.filter (inRange host args) := by
    rw [flatMap_congr fun chunk hmem => by
      obtain ⟨hchunk, halike⟩ := mem_fetchedChunks (mem_filter.1 hmem).1
      exact loadedRows_manifest hchunk halike]
    refine flatMap_filter_of_eq_nil fun chunk _ hapart => filter_eq_nil_iff.2 fun row hrow hrange => ?_
    rw [overlaps_manifest hrow hrange] at hapart
    cases hapart
  rw [← hloaded]
  refine ((host.sortManifests_perm _).flatMap_right _).trans ?_
  rw [fetchedManifests, filter_map, flatMap_map]
  exact Perm.refl _

/-- The rows of a read. -/
theorem expectedRows_perm_listedRows (archive : Archive host store) (args : FetchRangeArgs) :
    (expectedRows host store archive.objects args
      (relevantManifests host args (fetchedManifests archive args))).Perm
      (if EndsEarly args then listedRows archive args else []) := by
  refine (expectedRows_perm _ _).trans ((flatMap_relevantManifests archive args).trans (Perm.of_eq ?_))
  have hsplit : fetchedChunks archive args = (archive.chunks.filter (encodedAlike args)).filter
    (dayListed args) := by
    rw [filter_filter]
    exact filter_congr fun chunk _ => Bool.and_comm _ _
  split
  next hearly =>
    rw [hsplit]
    refine flatMap_filter_of_eq_nil fun chunk hmem hunlisted =>
      filter_eq_nil_iff.2 fun row hrow hrange => ?_
    rw [(dayListed_iff (mem_filter.1 hmem).1 hrow hrange).2 hearly] at hunlisted
    cases hunlisted
  next hlate =>
    refine flatMap_eq_nil_iff.2 fun chunk hmem => filter_eq_nil_iff.2 fun row hrow hrange => hlate ?_
    obtain ⟨hmem, hboth⟩ := mem_filter.1 hmem
    exact (dayListed_iff hmem hrow hrange).1 (Bool.and_eq_true_iff.1 hboth).2

/-! ## Their order -/

instance (order : ReadOrder) : Std.Total (InOrder host order) where
  total row row' := by
    cases order with
    | asc => exact le_total _ _
    | desc => exact le_total _ _

instance (order : ReadOrder) : IsTrans Row (InOrder host order) where
  trans row row' row'' h h' := by
    cases order with
    | asc => exact le_trans h h'
    | desc => exact le_trans h' h

/-- The rows of a day are rows of the day. -/
theorem utcDay_rowsOfDay (archive : Archive host store) (args : FetchRangeArgs) {day : JsString}
    (hrow : row ∈ rowsOfDay host store archive.objects args
      (relevantManifests host args (fetchedManifests archive args)) day) :
    utcDay (host.adapter.rowTimestamp row) = day ∧ 0 ≤ utcYear (host.adapter.rowTimestamp row) ∧
      utcYear (host.adapter.rowTimestamp row) ≤ 9999 := by
  obtain ⟨rows, hrows, hrow⟩ := mem_flatten.1 ((mem_insertionSort _).1 hrow)
  obtain ⟨manifest, hmanifest, rfl⟩ := mem_map.1 hrows
  obtain ⟨hmem, hday⟩ := mem_filter.1 ((dayManifests_perm _ _).mem_iff.1 hmanifest)
  obtain ⟨chunk, hchunk, halike, rfl⟩ := exists_fetched hmem
  rw [loadedRows_manifest hchunk halike] at hrow
  have hrow := (mem_filter.1 hrow).1
  exact ⟨(archive.day chunk hchunk row hrow).trans (of_decide_eq_true hday), utcYear_row hchunk hrow⟩

/-- Whether a day may be read before another. -/
def DaysInOrder (order : ReadOrder) (day day' : JsString) : Prop :=
  match order with
  | .asc => day.Before day'
  | .desc => day'.Before day

/-- The days are read in order, and no day twice. -/
theorem pairwise_dayOrder (args : FetchRangeArgs) (manifests : List ChunkManifest) :
    (dayOrder args manifests).Pairwise fun day day' => day ≠ day' ∧ DaysInOrder args.order day day' := by
  refine (nodup_dayOrder manifests).and ?_
  have htotal : Std.Total Before := ⟨Before.total⟩
  have htrans : IsTrans JsString Before := ⟨fun _ _ _ => Before.trans⟩
  have hsorted := pairwise_insertionSort Before ((manifests.map (·.partitionDate)).eraseDups)
  rw [dayOrder]
  cases args.order with
  | asc => exact hsorted
  | desc => exact pairwise_reverse.2 hsorted

/-- All rows come in order, those of different days as well. -/
theorem pairwise_expectedRows (archive : Archive host store) (args : FetchRangeArgs) :
    (expectedRows host store archive.objects args
      (relevantManifests host args (fetchedManifests archive args))).Pairwise
      (InOrder host args.order) := by
  rw [expectedRows, pairwise_flatMap]
  refine ⟨fun day _ => pairwise_insertionSort _ _, (pairwise_dayOrder args _).imp ?_⟩
  rintro day day' ⟨hne, hdays⟩ row hrow row' hrow'
  obtain ⟨hday, hyear, hlate⟩ := utcDay_rowsOfDay archive args hrow
  obtain ⟨hday', hyear', hlate'⟩ := utcDay_rowsOfDay archive args hrow'
  -- Were the rows the other way round, their days would be the same.
  cases horder : args.order with
  | asc =>
    rw [horder] at hdays
    refine not_lt.1 fun hlt => hne (hdays.antisymm ?_)
    rw [← hday, ← hday']
    exact utcDay_mono (le_of_lt hlt) hyear' hlate
  | desc =>
    rw [horder] at hdays
    refine not_lt.1 fun hlt => hne (Before.antisymm ?_ hdays)
    rw [← hday, ← hday']
    exact utcDay_mono (le_of_lt hlt) hyear hlate'

/-! ## Whole reads -/

/-- Every read can be brought to its end. -/
theorem exists_finished (archive : Archive host store) (args : FetchRangeArgs) {s : FetchState Row}
    (hreach : (fetchRange host store archive.objects args).Reachable anyStep s) :
    ∃ t, (fetchRange host store archive.objects args).Reachable anyStep t ∧ t.finished := by
  induction s using (fetchRange_ends host store archive.objects args).induction with
  | h s ih =>
    cases hfinished : s.finished with
    | true => exact ⟨s, hreach, hfinished⟩
    | false =>
      have hintact := archive.intact args
      obtain ⟨a, t, hstep⟩ := (hintact.reachable hreach).exists_step hintact hfinished
      exact ih t ⟨a, hstep⟩ (hreach.trans (.tail .refl trivial hstep))

/-- The manifests of a read when they are all there. -/
theorem filterMap_out (archive : Archive host store) (args : FetchRangeArgs)
    {m : MapState ChunkManifest ColdStoreError}
    (hreach : (listRelevantManifests store archive.objects args).Reachable anyStep m)
    (hdone : m.inFlight = []) : m.out.filterMap id = fetchedManifests archive args := by
  have hsound : m.Sound (getManifest archive.objects) (candidateKeys store archive.objects args) := by
    refine hreach.invariant (fun m hm => ?_) fun m i m' h _ hstep => h.complete hstep
    rw [Set.mem_singleton_iff.1 hm]
    exact MapState.sound_start _ _ (by decide)
  rw [hsound.out_eq (archive.intact args).manifests hdone, filterMap_id_map_some]

/-- The rows of some manifests are no more than they count. -/
theorem length_flatMap_le {f : ChunkManifest → List Row} (total : ℕ)
    (h : ∀ manifest ∈ manifests, (f manifest).length ≤ manifest.rowCount) :
    total + (manifests.flatMap f).length ≤ manifests.foldl
    (fun total manifest => total + manifest.rowCount) total := by
  induction manifests generalizing total with
  | nil => exact le_rfl
  | cons manifest manifests ih =>
    obtain ⟨hfirst, hrest⟩ := forall_mem_cons.1 h
    refine le_trans ?_ (ih (total + manifest.rowCount) hrest)
    rw [flatMap_cons, length_append]
    omega

/-- What a read has given is no more than is counted. -/
theorem length_yielded_le (archive : Archive host store) (args : FetchRangeArgs) {s : FetchState Row}
    (hreach : (fetchRange host store archive.objects args).Reachable anyStep s) :
    s.yielded.length ≤ (relevantManifests host args (fetchedManifests archive args)).foldl
      (fun total manifest => total + manifest.rowCount) 0 := by
  have hle := ((archive.intact args).reachable hreach).yielded_isPrefix.length_le
  rw [(expectedRows_perm _ _).length_eq] at hle
  refine hle.trans ((Nat.zero_add _).symm.le.trans (length_flatMap_le 0 fun manifest hmem => ?_))
  obtain ⟨chunk, hchunk, halike, rfl⟩ := exists_fetched hmem
  rw [loadedRows_manifest hchunk halike]
  exact length_filter_le _ _

/-- A read is exact: it never fails and always ends, then every archived row of the tenant in the
range was given once and no other, in order all the time; and what is said of the range without
reading it agrees. -/
structure ReadExact (archive : Archive host store) (args : FetchRangeArgs) : Prop where
  rows : ∀ s, (fetchRange host store archive.objects args).Reachable anyStep s → s.finished = true →
    s.yielded.Nodup ∧ ∀ row, row ∈ s.yielded ↔ archive.Archived args.tenantId row ∧
      inRange host args row = true
  sorted : ∀ s, (fetchRange host store archive.objects args).Reachable anyStep s →
    s.yielded.Pairwise (InOrder host args.order)
  goesOn : ∀ s, (fetchRange host store archive.objects args).Reachable anyStep s → s.finished = false →
    ∃ a t, (fetchRange host store archive.objects args).step s a = some t
  ends : WellFounded fun t s => ∃ a, (fetchRange host store archive.objects args).step s a = some t
  hasRange : ∀ s, (fetchRange host store archive.objects args).Reachable anyStep s → s.yielded ≠ [] →
    ∀ m, (listRelevantManifests store archive.objects args).Reachable anyStep m → m.inFlight = [] →
      hasRange host args m = true
  countRange : ∀ s, (fetchRange host store archive.objects args).Reachable anyStep s →
    ∀ m, (listRelevantManifests store archive.objects args).Reachable anyStep m → m.inFlight = [] →
      s.yielded.length ≤ countRange host args m

/-- What is yielded is what is archived, as far as the listing and the last day of the range let it
be. -/
def ListedExactly (archive : Archive host store) (args : FetchRangeArgs) : Prop :=
  if EndsEarly args then
    (listedRows archive args).Nodup ∧ ∀ row ∈ listedRows archive args, archive.Archived args.tenantId row
  else ∀ row, archive.Archived args.tenantId row → inRange host args row = false

theorem mem_listedRows : row ∈ listedRows archive args ↔
    ∃ chunk ∈ archive.chunks, encodedAlike args chunk ∧ row ∈ chunk.rows ∧ inRange host args row := by
  simp only [listedRows, mem_flatMap, mem_filter]
  constructor
  · rintro ⟨chunk, ⟨hmem, halike⟩, hrow, hrange⟩
    exact ⟨chunk, hmem, halike, hrow, hrange⟩
  · rintro ⟨chunk, hmem, halike, hrow, hrange⟩
    exact ⟨chunk, ⟨hmem, halike⟩, hrow, hrange⟩

/-- The rows of the tenant are listed. -/
theorem mem_listedRows_of_archived (h : archive.Archived args.tenantId row)
    (hrange : inRange host args row) : row ∈ listedRows archive args := by
  obtain ⟨chunk, hmem, htenant, hrow⟩ := h
  exact mem_listedRows.2 ⟨chunk, hmem, decide_eq_true (congrArg encodeKeySegment htenant), hrow, hrange⟩

/-- A read is exact if and only if what is listed in the range is the tenant's, each row once, and
the range ends in a year of four digits, or there is no row of the tenant in it. -/
theorem readExact_iff (archive : Archive host store) (args : FetchRangeArgs) :
    ReadExact archive args ↔ ListedExactly archive args := by
  have hintact := archive.intact args
  have hperm := expectedRows_perm_listedRows archive args
  constructor
  · intro h
    obtain ⟨s, hreach, hfinished⟩ := exists_finished archive args ⟨_, rfl, .refl⟩
    obtain ⟨hnodup, hmem⟩ := h.rows s hreach hfinished
    rw [(hintact.reachable hreach).yielded_eq hfinished] at hnodup hmem
    rw [ListedExactly]
    split
    next hearly =>
      rw [if_pos hearly] at hperm
      exact ⟨hperm.nodup_iff.1 hnodup, fun row hrow => ((hmem row).1 (hperm.mem_iff.2 hrow)).1⟩
    next hlate =>
      rw [if_neg hlate] at hperm
      refine fun row harchived => Bool.eq_false_iff.2 fun hrange => ?_
      cases hperm.mem_iff.1 ((hmem row).2 ⟨harchived, hrange⟩)
  · intro h
    rw [ListedExactly] at h
    refine ⟨fun s hreach hfinished => ?_, fun s hreach => ?_, fun s hreach hfinished => ?_,
      fetchRange_ends _ _ _ _,
      fun s hreach hyielded m hm hdone => ?_, fun s hreach m hm hdone => ?_⟩
    · rw [(hintact.reachable hreach).yielded_eq hfinished]
      split at h
      next hearly =>
        rw [if_pos hearly] at hperm
        refine ⟨hperm.nodup_iff.2 h.1, fun row => ⟨fun hrow => ?_, ?_⟩⟩
        · have hrow := hperm.mem_iff.1 hrow
          obtain ⟨chunk, -, -, -, hrange⟩ := mem_listedRows.1 hrow
          exact ⟨h.2 row hrow, hrange⟩
        · rintro ⟨harchived, hrange⟩
          exact hperm.mem_iff.2 (mem_listedRows_of_archived harchived hrange)
      next hlate =>
        rw [if_neg hlate] at hperm
        rw [perm_nil.1 hperm]
        refine ⟨nodup_nil, fun row => ⟨nofun, ?_⟩⟩
        rintro ⟨harchived, hrange⟩
        rw [h row harchived] at hrange
        cases hrange
    · exact (pairwise_expectedRows archive args).sublist
        (hintact.reachable hreach).yielded_isPrefix.sublist
    · exact (hintact.reachable hreach).exists_step hintact hfinished
    · refine decide_eq_true (length_pos_iff.2 ?_)
      rw [filterMap_out archive args hm hdone]
      intro hnone
      have hle := length_yielded_le archive args hreach
      rw [hnone] at hle
      exact hyielded (length_eq_zero_iff.1 (Nat.le_zero.1 hle))
    · rw [ColdStore.countRange, filterMap_out archive args hm hdone]
      exact length_yielded_le archive args hreach

/-! ### A range without an end -/

/-- Rows that are numbers, all of noon of 2026-04-24. -/
def noonHost : ReadHost ℕ (List ℕ) where
  codec := { encode := id, decode := id, decode_encode := fun _ => rfl
             sha256 := fun _ => js "9f86d081" }
  adapter := { rowId := fun row => .number row, rowTimestamp := fun _ => 1777032000000 }
  sortManifests := id
  sortManifests_perm := fun _ => .refl _

def accessLogs : TableStore where
  keyPrefix := js "cold"
  db := .orchestrator
  table := js "access_log"

def noonChunk : ArchivedChunk ℕ where
  tenantId := js "acme"
  partitionDate := js "2026-04-24"
  bucket := none
  chunkId := js "0123456789abcdef"
  first := 1
  rest := []

def noonArchive : Archive noonHost accessLogs where
  chunks := [noonChunk]
  valid := forall_mem_singleton.2 ⟨by decide, by decide, by decide, by decide⟩
  day := forall_mem_singleton.2 (forall_mem_singleton.2 (by decide))
  apart := nodup_singleton _

/-- All rows since 1970, up to the last instant that there is. -/
def wholeRange : FetchRangeArgs where
  tenantId := js "acme"
  fromTs := 0
  toTs := 8640000000000000
  order := .asc

/-- A read up to the last instant gives no row, and there is one. -/
theorem exists_row_not_read : wholeRange.fromTs < wholeRange.toTs ∧
    ¬ ReadExact noonArchive wholeRange := by
  refine ⟨by decide, fun h => ?_⟩
  have hnone : candidateKeys accessLogs noonArchive.objects wholeRange = [] := if_neg (by decide)
  have hinit : afterManifest noonHost wholeRange
    (startManifests accessLogs noonArchive.objects wholeRange) =
      .days [] 0 [] [] := by
    rw [startManifests, hnone]
    rfl
  obtain ⟨-, hrows⟩ := h.rows (.days [] 0 [] []) ⟨_, hinit.symm, .refl⟩ rfl
  have harchived : noonArchive.Archived (js "acme") 1 := ⟨noonChunk, mem_cons_self, rfl, mem_cons_self⟩
  exact not_mem_nil ((hrows 1).2 ⟨harchived, by decide⟩)

end Kici.ColdStore
