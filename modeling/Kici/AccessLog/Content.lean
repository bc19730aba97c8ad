import Kici.AccessLog.LoadRange
import Kici.ColdStore.Exact
import Kici.Foundation.Table

/-!
# What a page holds

The rows are those of the table and those that are archived for the tenant of the filter
(`TenantCold`). The archive is read by runs of `fetchRange`, each of which may take a way of its
own, and the warm cutoff may move on from page to page.

* `hotQueue`: the rows of the table that a cursor leaves, the newest first. A page begins with the
  first of them, and if it is full it has no archived rows (`load_of_hotQueue`);
* `coldQueue`: the items of the archived rows that a cursor leaves and the range of the read holds.
  A page that is not full goes on with the first of them (`load_of_wantCold`).
-/

namespace Kici.AccessLog

open List ColdStore AccessLogFilter AccessLogItem AccessLogRow Bool Latest

variable {items : List AccessLogItem} {args : FetchRangeArgs}

/-! ## The content -/

/-- The archive of a tenant, and the reads of it: the `n`th page reads it at a warm cutoff, and its
read comes to an end in some way. -/
structure TenantCold (Body : Type) (tenantId : JsString) where
  host : ReadHost AccessLogRow Body
  rowTimestamp : ∀ row, host.adapter.rowTimestamp row = row.createdMs
  store : TableStore
  archive : Archive host store
  own : ∀ chunk ∈ archive.chunks, chunk.tenantId = tenantId
  warmCutoff : ℕ → ℤ
  warmCutoff_le : ∀ m n, m ≤ n → warmCutoff m ≤ warmCutoff n
  early : ∀ n, utcYear (warmCutoff n - 1) ≤ 9999
  reads : ℕ → FetchRangeArgs → List AccessLogRow
  reads_end : ∀ n args, ∃ s, (fetchRange host store archive.objects args).Reachable System.anyStep s ∧
    s.finished = true ∧ s.yielded = reads n args

namespace TenantCold

variable {Body : Type} {tenantId : JsString} (cold : TenantCold Body tenantId) (n : ℕ)

/-- The cold store, as the `n`th page finds it. -/
def side : ColdSide where
  warmCutoff := cold.warmCutoff n
  fetchRange args := { rows := cold.reads n args, error := none }

/-- All rows that are archived for the tenant. -/
def rows : List AccessLogRow := cold.archive.chunks.flatMap ArchivedChunk.rows

theorem reads_eq (args : FetchRangeArgs) :
    cold.reads n args = expectedRows cold.host cold.store cold.archive.objects
    args (relevantManifests cold.host args (fetchedManifests cold.archive args)) := by
  obtain ⟨s, hreach, hfinished, heq⟩ := cold.reads_end n args
  rw [← heq]
  exact ((cold.archive.intact args).reachable hreach).yielded_eq hfinished

/-- A read of the tenant gives the rows of its range. -/
theorem reads_perm (htenant : args.tenantId = tenantId) (hearly : EndsEarly args) :
    (cold.reads n args).Perm (cold.rows.filter (inRange cold.host args)) := by
  have hperm := expectedRows_perm_listedRows cold.archive args
  rw [if_pos hearly, ← cold.reads_eq n] at hperm
  refine hperm.trans (Perm.of_eq ?_)
  have hall : cold.archive.chunks.filter (encodedAlike args) = cold.archive.chunks :=
    filter_eq_self.2 fun chunk hmem => decide_eq_true (by rw [cold.own chunk hmem, htenant])
  rw [listedRows, hall, rows, filter_flatMap]

/-- The newest rows come first. -/
theorem reads_sorted (hdesc : args.order = .desc) :
    (cold.reads n args).Pairwise fun row row' => row'.createdMs ≤ row.createdMs := by
  have hsorted := pairwise_expectedRows cold.archive args
  rw [← cold.reads_eq n, hdesc] at hsorted
  refine hsorted.imp fun {row row'} h => ?_
  rwa [← cold.rowTimestamp, ← cold.rowTimestamp]

end TenantCold

section
variable {Body : Type} (host : TextHost) (filter : AccessLogFilter) (db : Table AccessLogRow.id)
  (cold : Option (TenantCold Body filter.tenantToScan)) (limit n : ℕ) (cursor : Option AccessLogCursor)

/-- The `n`th page that is loaded. -/
def loadPage : Except ColdStoreError (Page AccessLogCursor AccessLogItem) :=
  loadAccessLogRange host db.rows (cold.map (·.side n)) filter limit cursor

/-- The rows of the table that match. -/
def hotMatching : List AccessLogRow := db.rows.filter (filter.hotWhere host)

/-- The rows of the archive that match and are older than the warm cutoff of the `n`th page. -/
def coldMatching : List AccessLogRow :=
  match cold with
  | none => []
  | some cold => cold.rows.filter fun row => filter.coldMatches host row &&
      filter.fromTimestamp.all (fun fromTs => fromTs ≤ row.createdMs) &&
      filter.toTimestamp.all (fun toTs => row.createdMs < toTs) && row.createdMs < cold.warmCutoff n

/-- The rows of them that the `n`th page would read. -/
def coldReadable : List AccessLogRow :=
  (coldMatching host filter cold n).filter fun row => filter.coldFromTs ≤ row.createdMs

/-- The matching rows of the table that the cursor leaves, the newest first. -/
def hotQueue : List AccessLogRow :=
  (sort AccessLogRow.key (hotMatching host filter db)).filter (belowHotCursor cursor)

/-- The archived rows that the cursor leaves for the `n`th page, as items, the newest first. -/
def coldQueue : List AccessLogItem :=
  sort key
    (((coldReadable host filter cold n).map toAccessLogItem).filter (beforeCursor cursor))

end

/-! ## Keys -/

/-- Rows with ids of their own have keys of their own. -/
theorem nodup_key {rows : List AccessLogRow} (h : (rows.map (·.id)).Nodup) :
    (rows.map AccessLogRow.key).Nodup := by
  refine Nodup.of_map (fun key => (ofLex key).2) ?_
  rw [map_map]
  exact h

theorem nodup_itemKey (h : (items.map (·.id)).Nodup) :
    (items.map AccessLogItem.key).Nodup := by
  refine Nodup.of_map (fun key => (ofLex key).2) ?_
  rw [map_map]
  exact h

theorem map_id_toAccessLogItem (rows : List AccessLogRow) :
    (rows.map toAccessLogItem).map (·.id) = rows.map (·.id) := map_map

/-! ## What the table gives -/

section
variable {Body : Type} {host : TextHost} {filter : AccessLogFilter} {db : Table AccessLogRow.id}
  {cold : Option (TenantCold Body filter.tenantToScan)} {limit n : ℕ} {cursor : Option AccessLogCursor}

theorem nodup_hotMatching : ((hotMatching host filter db).map (·.id)).Nodup :=
  db.nodup.sublist (filter_sublist.map _)

theorem latest_hotMatching :
    Latest AccessLogRow.key (sort AccessLogRow.key (hotMatching host filter db)) :=
  of_sort (nodup_key nodup_hotMatching)

theorem latest_hotQueue : Latest AccessLogRow.key (hotQueue host filter db cursor) :=
  latest_hotMatching.filter _

theorem hotQueue_none : hotQueue host filter db none = sort AccessLogRow.key
    (hotMatching host filter db) :=
  filter_eq_self.2 fun _ _ => rfl

theorem hotRows_eq (hsource : resumesCold cursor = false) :
    hotRows host db.rows filter limit cursor = (hotQueue host filter db cursor).take (limit + 1) := by
  rw [hotRows, hsource, if_neg Bool.false_ne_true, hotQueue, ← sort_filter (nodup_key nodup_hotMatching),
    hotMatching, filter_filter]
  exact congrArg (fun rows => (sort AccessLogRow.key rows).take (limit + 1))
    (filter_congr fun row _ => Bool.and_comm _ _)

theorem hotHasMore_eq (hsource : resumesCold cursor = false) :
    hotHasMore host db.rows filter limit cursor = decide
    (limit < (hotQueue host filter db cursor).length) := by
  rw [hotHasMore, hotRows_eq hsource, length_take, decide_eq_decide, lt_inf_iff]
  exact and_iff_right limit.lt_succ_self

theorem hotItems_eq (hsource : resumesCold cursor = false) :
    hotItems host db.rows filter limit cursor =
      ((hotQueue host filter db cursor).take limit).map toAccessLogItem := by
  rw [hotItems, hotHasMore_eq hsource, hotRows_eq hsource, take_take, min_eq_left limit.le_succ]
  split
  next => rfl
  next hle =>
    have hle : (hotQueue host filter db cursor).length ≤ limit := not_lt.1 fun h =>
      hle (decide_eq_true h)
    rw [take_of_length_le hle, take_of_length_le (hle.trans limit.le_succ)]

theorem hotItems_resumed (hsource : resumesCold cursor) :
    hotItems host db.rows filter limit cursor = [] := by
  have hnone : hotRows host db.rows filter limit cursor = [] := if_pos hsource
  rw [hotItems, hnone, take_nil, ite_self, map_nil]

theorem hotHasMore_resumed (hsource : resumesCold cursor) :
    hotHasMore host db.rows filter limit cursor = false := by
  have hnone : hotRows host db.rows filter limit cursor = [] := if_pos hsource
  rw [hotHasMore, hnone]
  exact decide_eq_false (Nat.not_lt_zero limit)

/-- A page that the table fills holds nothing else, and has a next one only if the table has more. -/
theorem load_of_hotQueue (cold : Option (TenantCold Body filter.tenantToScan)) (n : ℕ)
    (hsource : resumesCold cursor = false) (hfull : limit ≤ (hotQueue host filter db cursor).length) :
    loadPage host filter db cold limit n cursor = .ok
      { items := ((hotQueue host filter db cursor).take limit).map toAccessLogItem
        nextCursor := if limit < (hotQueue host filter db cursor).length then
            (((hotQueue host filter db cursor).take limit).map toAccessLogItem).getLast?.map
            buildHotCursor
          else none } := by
  have hwant : wantCold host db.rows filter limit cursor = false := by
    rw [wantCold, hsource, hotItems_eq hsource, length_map, length_take, min_eq_left hfull,
      decide_eq_false (lt_irrefl limit), Bool.and_false, Bool.or_false]
  have hpage : hotPage host db.rows filter limit cursor =
      { items := ((hotQueue host filter db cursor).take limit).map toAccessLogItem
        nextCursor := if limit < (hotQueue host filter db cursor).length then
            (((hotQueue host filter db cursor).take limit).map toAccessLogItem).getLast?.map
              buildHotCursor
          else none } := by
    rw [hotPage, hotItems_eq hsource, hotHasMore_eq hsource]
    simp only [decide_eq_true_eq]
  rw [loadPage, ← hpage]
  cases cold with
  | none => rfl
  | some cold =>
    rw [Option.map_some, loadAccessLogRange, hwant]
    rfl

/-! ## What the archive gives -/

theorem scanCold_eq (coldRemaining : ℕ) (coldItems : List AccessLogItem) (rows : List AccessLogRow) :
    scanCold host filter cursor coldRemaining coldItems rows =
      readUntil AccessLogItem.createdAt coldRemaining coldItems
        (((rows.filter (filter.coldMatches host)).map toAccessLogItem).filter
          (beforeCursor cursor)) := by
  induction rows generalizing coldItems with
  | nil => rfl
  | cons row rows ih =>
    rw [scanCold]
    cases hmatches : filter.coldMatches host row with
    | false => exact (ih coldItems).trans (by rw [filter_cons_of_neg (not_eq_true _ ▸ hmatches)])
    | true =>
      rw [filter_cons_of_pos hmatches, map_cons]
      cases hbefore : beforeCursor cursor (toAccessLogItem row) with
      | false => exact (ih coldItems).trans (by rw [filter_cons_of_neg (not_eq_true _ ▸ hbefore)])
      | true =>
        rw [filter_cons_of_pos hbefore, readUntil]
        simp only [Bool.not_true, false_eq_true, if_false]
        rw [ih]

theorem coldToTs_le (filter : AccessLogFilter) (warmCutoff : ℤ) :
    filter.coldToTs warmCutoff ≤ warmCutoff := by
  rw [coldToTs]
  split
  · exact le_rfl
  · split
    next hlt => exact hlt.le
    next => exact le_rfl

theorem lt_coldToTs {warmCutoff t : ℤ} :
    t < filter.coldToTs warmCutoff ↔ filter.toTimestamp.all (fun toTs => t < toTs) ∧ t < warmCutoff := by
  rw [coldToTs]
  cases filter.toTimestamp with
  | none => exact (and_iff_right rfl).symm
  | some toTs =>
    rw [Option.all_some, decide_eq_true_iff]
    show t < (if toTs < warmCutoff then toTs else warmCutoff) ↔ t < toTs ∧ t < warmCutoff
    split
    next hlt => exact ⟨fun h => ⟨h, h.trans hlt⟩, And.left⟩
    next hle => exact ⟨fun h => ⟨h.trans_le (not_lt.1 hle), h⟩, And.right⟩

theorem all_le_of_coldFromTs_le {t : ℤ} (h : filter.coldFromTs ≤ t) :
    filter.fromTimestamp.all (fun fromTs => fromTs ≤ t) := by
  rw [coldFromTs] at h
  cases hfrom : filter.fromTimestamp with
  | none => rfl
  | some fromTs =>
    rw [hfrom] at h
    exact decide_eq_true h

/-- What is read matches, and lies in the range. -/
theorem coldReadable_eq (cold : TenantCold Body filter.tenantToScan) :
    coldReadable host filter (some cold) n = cold.rows.filter fun row => filter.coldMatches host row &&
      decide (filter.coldFromTs ≤ row.createdMs ∧
        row.createdMs < filter.coldToTs (cold.warmCutoff n)) := by
  rw [coldReadable, coldMatching, filter_filter]
  refine filter_congr fun row _ => ?_
  rw [Bool.eq_iff_iff]
  simp only [and_eq_true, decide_eq_true_eq, lt_coldToTs]
  constructor
  · rintro ⟨hfrom, ⟨⟨hmatches, -⟩, hto⟩, hwarm⟩
    exact ⟨hmatches, hfrom, hto, hwarm⟩
  · rintro ⟨hmatches, hfrom, hto, hwarm⟩
    exact ⟨hfrom, ⟨⟨hmatches, all_le_of_coldFromTs_le hfrom⟩, hto⟩, hwarm⟩

/-- The read of a page gives what is readable. -/
theorem reads_perm_coldReadable (host : TextHost) (n : ℕ) (cold : TenantCold Body filter.tenantToScan) :
    ((cold.reads n (filter.coldRange (cold.warmCutoff n))).filter (filter.coldMatches host)).Perm
      (coldReadable host filter (some cold) n) := by
  have hearly : EndsEarly (filter.coldRange (cold.warmCutoff n)) := by
    have hle : filter.coldToTs (cold.warmCutoff n) - 1 ≤ cold.warmCutoff n - 1 :=
      Int.sub_le_sub_right (coldToTs_le filter _) 1
    exact (yearFromDay_mono (Int.ediv_le_ediv (by decide) hle)).trans (cold.early n)
  refine ((cold.reads_perm n rfl hearly).filter _).trans (Perm.of_eq ?_)
  rw [coldReadable_eq, filter_filter]
  refine filter_congr fun row _ => congrArg _ ?_
  rw [inRange, cold.rowTimestamp, decide_eq_decide, not_lt, not_le]
  exact Iff.rfl

/-- The items of a read come in the order of their instants. -/
theorem reads_sorted_items (cold : TenantCold Body filter.tenantToScan) :
    ((((cold.reads n (filter.coldRange (cold.warmCutoff n))).filter (filter.coldMatches host)).map
      toAccessLogItem).filter (beforeCursor cursor)).Pairwise
        fun item item' => item'.createdAt ≤ item.createdAt :=
  (pairwise_map.2 ((cold.reads_sorted n rfl).filter _)).filter _

/-- Where the range ends before it begins, nothing is readable. -/
theorem coldReadable_of_le {cold : TenantCold Body filter.tenantToScan}
    (h : cold.warmCutoff n ≤ filter.coldFromTs) : coldReadable host filter (some cold) n = [] := by
  rw [coldReadable_eq, filter_eq_nil_iff]
  intro row _ hrow
  obtain ⟨hfrom, hto⟩ := of_decide_eq_true (and_eq_true_iff.1 hrow).2
  exact absurd (hfrom.trans_lt (hto.trans_le (coldToTs_le filter _))) (not_lt.2 h)

/-- What is made of a read that ended. -/
theorem readCold_eq (hotPage : Page AccessLogCursor AccessLogItem) (hotHasMore : Bool)
    (coldRemaining : ℕ) (rows : List AccessLogRow) :
    readCold host filter cursor hotPage hotHasMore coldRemaining { rows, error := none } =
      .ok (mergedPage hotPage hotHasMore coldRemaining
        (scanCold host filter cursor coldRemaining [] rows).1
        (scanCold host filter cursor coldRemaining [] rows).2) := by
  rw [readCold]
  rcases scanCold host filter cursor coldRemaining [] rows with ⟨coldItems, _ | _⟩ <;> rfl

/-- The page that is made of a read in order holds the first items, and has a next page if there are
more. -/
theorem mergedPage_readUntil {hotPage : Page AccessLogCursor AccessLogItem} {room : ℕ}
    (hnodup : (items.map AccessLogItem.key).Nodup)
    (hsorted : items.Pairwise fun item item' => item'.createdAt ≤ item.createdAt) :
    mergedPage hotPage false room (readUntil AccessLogItem.createdAt room [] items).1
        (readUntil AccessLogItem.createdAt room [] items).2 =
      { items := hotPage.items ++ (sort AccessLogItem.key items).take room
        nextCursor := if room < items.length then
            ((sort AccessLogItem.key items).take room).getLast?.map buildColdCursor
          else none } := by
  obtain ⟨htake, hmore⟩ := readUntil_spec (n := room) hnodup
    (fun item item' hlt => Prod.Lex.toLex_lt_toLex.2 (.inl hlt)) hsorted
  rw [mergedPage, htake]
  refine congrArg (Page.mk _) ?_
  rw [Bool.false_and, if_neg Bool.false_ne_true]
  by_cases hlt : room < items.length
  · rw [hmore.2 hlt, Bool.true_and, if_pos hlt]
    split
    next => rfl
    next hempty =>
      rw [not_eq_true', not_eq_false, List.isEmpty_iff] at hempty
      rw [hempty]
      rfl
  · rw [eq_false_iff.2 fun h => hlt (hmore.1 h), Bool.false_and, if_neg Bool.false_ne_true, if_neg hlt]

/-- A page that has room goes on with the archived rows. -/
theorem load_of_wantCold (hwant : wantCold host db.rows filter limit cursor)
    (hnodup : ((coldQueue host filter cold n cursor).map AccessLogItem.key).Nodup) {room : ℕ}
    (hroom : room = limit - (hotItems host db.rows filter limit cursor).length) :
    loadPage host filter db cold limit n cursor = .ok
      { items := hotItems host db.rows filter limit cursor ++
        (coldQueue host filter cold n cursor).take room
        nextCursor := if room < (coldQueue host filter cold n cursor).length then
            ((coldQueue host filter cold n cursor).take room).getLast?.map buildColdCursor
          else none } := by
  have hmore : hotHasMore host db.rows filter limit cursor = false := by
    cases hsource : resumesCold cursor with
    | true => exact hotHasMore_resumed hsource
    | false =>
      rw [wantCold, hsource, Bool.false_or, and_eq_true, not_eq_true'] at hwant
      exact hwant.1
  have hpage : hotPage host db.rows filter limit cursor =
      { items := hotItems host db.rows filter limit cursor, nextCursor := none } := by
    rw [hotPage, hmore, if_neg Bool.false_ne_true]
  have hempty (hnone : coldQueue host filter cold n cursor = []) :
      Except.ok (ε := ColdStoreError) (hotPage host db.rows filter limit cursor) = .ok
        { items := hotItems host db.rows filter limit cursor ++
          (coldQueue host filter cold n cursor).take room
          nextCursor := if room < (coldQueue host filter cold n cursor).length then
              ((coldQueue host filter cold n cursor).take room).getLast?.map buildColdCursor
            else none } := by
    rw [hpage, hnone, take_nil, append_nil, length_nil, if_neg (Nat.not_lt_zero room)]
  cases cold with
  | none => exact hempty rfl
  | some cold =>
    have hcutoff : (cold.side n).warmCutoff = cold.warmCutoff n := rfl
    rw [loadPage, Option.map_some, loadAccessLogRange, hwant, hcutoff, Bool.not_true, Bool.false_or]
    by_cases hle : cold.warmCutoff n ≤ filter.coldFromTs
    · rw [if_pos (decide_eq_true hle)]
      refine hempty ?_
      rw [coldQueue, coldReadable_of_le hle]
      rfl
    · have hperm := ((reads_perm_coldReadable host n cold).map toAccessLogItem).filter
        (beforeCursor cursor)
      rw [decide_eq_false hle, if_neg Bool.false_ne_true, ← hroom, hmore]
      refine (readCold_eq _ _ _ _).trans ?_
      have hnodup' := ((((hperm.trans (sort_perm _ _).symm).map AccessLogItem.key).nodup_iff).2 hnodup)
      rw [scanCold_eq, hpage, mergedPage_readUntil hnodup' (reads_sorted_items cold),
        sort_congr hnodup' hperm]
      rw [hperm.length_eq, ← (sort_perm AccessLogItem.key _).length_eq]
      rfl

end

end Kici.AccessLog
