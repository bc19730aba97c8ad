import Kici.AccessLog.Content

/-!
# Paging through the access log

Following the next cursor from the first page on gives a walk through the table and then through the
archive. Its items are to be those of every matching row of the table and of every matching row of
the archive that is older than the warm cutoff, each once (`ReturnsEachOnce`).

The rows of the archive are never skipped once they are read (`walk_cold`). The rows of the table
may be: the cursor of a page has the instant of the last row without its microseconds, so that the
next page leaves out what lies in the same millisecond; and a table whose last page is exactly full
has no next page, and the archive is not read. What a walk gives is counted in `exists_walk`, and
from it follows when nothing is missed (`returnsEachOnce_iff`).
-/

namespace Kici.AccessLog

open List ColdStore AccessLogRow Latest

section
variable {Body : Type} (host : TextHost) (filter : AccessLogFilter) (db : Table AccessLogRow.id)
  (cold : Option (TenantCold Body filter.tenantToScan)) (limit : ℕ)

/-- The number of the page that has room for archived rows, where no page before it misses any row. -/
def coldPageNumber : ℕ := (hotMatching host filter db).length / limit

/-- The rows that a walk is to give: the cutoff is that of the page that comes to the archive. -/
def expectedItems : List AccessLogItem :=
  (hotMatching host filter db ++ coldMatching host filter cold (coldPageNumber host filter db limit)).map
    toAccessLogItem

/-- The walk ends, and its items are those of the matching rows, each once. -/
def ReturnsEachOnce : Prop :=
  ∃ items, Walk (loadPage host filter db cold limit) 0 none items ∧
    items.Perm (expectedItems host filter db cold limit) ∧ (items.map (·.id)).Nodup

/-- The bound that the cursor after a row of the table sets. -/
def cursorBound (row : AccessLogRow) : ℤ ×ₗ ℕ := (buildHotCursor (toAccessLogItem row)).hotBound

/-- When nothing is missed. -/
structure Pageable : Prop where
  /-- No row is in the table and archived as well, and none is archived twice. -/
  once : ((expectedItems host filter db cold limit).map (·.id)).Nodup
  /-- At each cut of the table into pages, the next row is before the last one even in
  milliseconds. -/
  cuts : CutsKept key cursorBound limit (sort key (hotMatching host filter db))
  /-- The last page of the table is not full, or there are no archived rows. -/
  lastPage : hotMatching host filter db ≠ [] → limit ∣ (hotMatching host filter db).length →
    coldMatching host filter cold (coldPageNumber host filter db limit) = []
  /-- No archived row is left out for being older than the beginning of the range that is read. -/
  since1970 : ∀ row ∈ coldMatching host filter cold (coldPageNumber host filter db limit),
    filter.coldFromTs ≤ row.createdMs

end

section
variable {Body : Type} {host : TextHost} {filter : AccessLogFilter} {db : Table AccessLogRow.id}
  {cold : Option (TenantCold Body filter.tenantToScan)} {limit n m : ℕ} {cursor : Option AccessLogCursor}
  {rows : List AccessLogRow} {items : List AccessLogItem} {item : AccessLogItem} {row : AccessLogRow}

/-! ## The archive -/

theorem beforeCursor_iff {cursor : AccessLogCursor} :
    beforeCursor (some cursor) item ↔ cursor.source ≠ .cold ∨ item.key < cursor.coldBound := by
  rw [beforeCursor, Option.all_some, Bool.or_eq_true, decide_eq_true_iff, decide_eq_true_iff]

theorem beforeCursor_of_hot (hsource : resumesCold cursor = false) (item : AccessLogItem) :
    beforeCursor cursor item := by
  cases cursor with
  | none => rfl
  | some cursor => exact beforeCursor_iff.2 (.inl (of_decide_eq_false hsource))

theorem beforeCursor_cold {item item' : AccessLogItem} :
    beforeCursor (some (buildColdCursor item')) item ↔ item.key < item'.key :=
  beforeCursor_iff.trans ⟨fun h => h.resolve_left fun hne => hne rfl, .inr⟩

theorem mem_coldQueue : item ∈ coldQueue host filter cold n cursor ↔
    (∃ row ∈ coldReadable host filter cold n, toAccessLogItem row = item) ∧
    beforeCursor cursor item := by
  rw [coldQueue, (sort_perm _ _).mem_iff, mem_filter, mem_map]

theorem createdAt_le_of_lt {item item' : AccessLogItem} (h : item.key < item'.key) :
    item.createdAt ≤ item'.createdAt := by
  rcases Prod.Lex.toLex_lt_toLex.1 h with hlt | ⟨heq, -⟩
  · exact hlt.le
  · exact heq.le

/-- What an earlier page reads is, of what a later page reads, that which is older than its own
cutoff. -/
theorem coldReadable_mono (host : TextHost) (cold : Option (TenantCold Body filter.tenantToScan))
    (h : n ≤ m) : ∃ p : AccessLogRow → Bool,
    coldReadable host filter cold n = (coldReadable host filter cold m).filter p ∧
      ∀ row ∈ coldReadable host filter cold n, ∀ row', row'.createdMs ≤ row.createdMs → p row' := by
  cases cold with
  | none => exact ⟨fun _ => true, rfl, nofun⟩
  | some cold =>
    refine ⟨fun row => row.createdMs < filter.coldToTs (cold.warmCutoff n), ?_,
      fun row hmem row' hle => ?_⟩
    · rw [coldReadable_eq, coldReadable_eq, filter_filter]
      refine filter_congr fun row _ => ?_
      rw [Bool.eq_iff_iff]
      simp only [Bool.and_eq_true, decide_eq_true_eq, lt_coldToTs]
      constructor
      · rintro ⟨hmatches, hfrom, hto, hwarm⟩
        exact ⟨⟨hto, hwarm⟩, hmatches, hfrom, hto, hwarm.trans_le (cold.warmCutoff_le _ _ h)⟩
      · rintro ⟨⟨hto, hwarm⟩, hmatches, hfrom, -, -⟩
        exact ⟨hmatches, hfrom, hto, hwarm⟩
    · rw [coldReadable_eq, mem_filter, Bool.and_eq_true, decide_eq_true_iff] at hmem
      exact decide_eq_true (hle.trans_lt hmem.2.2.2)

theorem nodup_coldReadable_of_le (h : n ≤ m)
    (hnodup : ((coldReadable host filter cold m).map (·.id)).Nodup) :
    ((coldReadable host filter cold n).map (·.id)).Nodup := by
  obtain ⟨p, heq, -⟩ := coldReadable_mono host cold h
  rw [heq]
  exact hnodup.sublist (filter_sublist.map _)

theorem length_coldReadable_le (h : n ≤ m) :
    (coldReadable host filter cold n).length ≤ (coldReadable host filter cold m).length := by
  obtain ⟨p, heq, -⟩ := coldReadable_mono host cold h
  rw [heq]
  exact length_filter_le _ _

theorem nodup_coldQueue (cursor : Option AccessLogCursor)
    (hnodup : ((coldReadable host filter cold n).map (·.id)).Nodup) :
    ((coldQueue host filter cold n cursor).map AccessLogItem.key).Nodup := by
  refine (((sort_perm _ _).map _).nodup_iff).2 (nodup_itemKey ?_)
  refine Nodup.sublist (filter_sublist.map _) ?_
  rw [map_id_toAccessLogItem]
  exact hnodup

/-- The cursor of an item leaves what comes after it. -/
theorem coldQueue_next (hnodup : ((coldQueue host filter cold n cursor).map AccessLogItem.key).Nodup)
    {pre post : List AccessLogItem}
    (hsplit : coldQueue host filter cold n cursor = pre ++ item :: post) :
    coldQueue host filter cold n (some (buildColdCursor item)) = post := by
  have hnodup := (((sort_perm _ _).map _).nodup_iff).1 hnodup
  have hlatest : Latest AccessLogItem.key (pre ++ item :: post) := hsplit ▸ of_sort hnodup
  have hitem : beforeCursor cursor item :=
    (mem_coldQueue.1 (hsplit ▸ mem_append_right pre mem_cons_self)).2
  have hbefore (item' : AccessLogItem) (hlt : item'.key < item.key) : beforeCursor cursor item' := by
    cases cursor with
    | none => rfl
    | some cursor =>
      exact beforeCursor_iff.2 ((beforeCursor_iff.1 hitem).imp_right hlt.trans)
  rw [← hlatest.filter_below, ← hsplit]
  refine Eq.trans ?_ (sort_filter hnodup _)
  rw [filter_filter, coldQueue]
  refine congrArg _ (filter_congr fun item' _ => ?_)
  rw [Bool.eq_iff_iff, Bool.and_eq_true, beforeCursor_cold, decide_eq_true_iff]
  exact ⟨fun hlt => ⟨hlt, hbefore item' hlt⟩, And.left⟩

/-- A later page leaves the same after an item, although its cutoff is later. -/
theorem coldQueue_later (hmem : item ∈ coldQueue host filter cold n cursor) (h : n ≤ m) :
    coldQueue host filter cold m (some (buildColdCursor item)) =
      coldQueue host filter cold n (some (buildColdCursor item)) := by
  obtain ⟨p, heq, hp⟩ := coldReadable_mono host cold h
  obtain ⟨⟨row, hrow, rfl⟩, -⟩ := mem_coldQueue.1 hmem
  rw [coldQueue, coldQueue, heq, filter_map, filter_map, filter_filter]
  refine congrArg (fun rows => sort AccessLogItem.key (rows.map toAccessLogItem))
    (filter_congr fun row' _ => ?_)
  rw [Function.comp_apply, Bool.eq_iff_iff, Bool.and_eq_true, beforeCursor_cold]
  exact ⟨fun hlt => ⟨hlt, hp row hrow row' (createdAt_le_of_lt hlt)⟩, And.left⟩

theorem room_pos (hlimit : 0 < limit) (hwant : wantCold host db.rows filter limit cursor) :
    0 < limit - (hotItems host db.rows filter limit cursor).length := by
  cases hsource : resumesCold cursor with
  | true =>
    rw [hotItems_resumed hsource]
    exact hlimit
  | false =>
    rw [wantCold, hsource, Bool.false_or, Bool.and_eq_true, decide_eq_true_iff] at hwant
    exact Nat.sub_pos_of_lt hwant.2

/-- From a page that has room for archived rows on, the walk gives all that are left. -/
theorem walk_cold (hlimit : 0 < limit) (hwant : wantCold host db.rows filter limit cursor)
    (hnodup : ((coldQueue host filter cold n cursor).map AccessLogItem.key).Nodup) :
    Walk (loadPage host filter db cold limit) n cursor
      (hotItems host db.rows filter limit cursor ++ coldQueue host filter cold n cursor) := by
  -- The induction is on what is left; each page has room, and leaves less.
  induction hlength : (coldQueue host filter cold n cursor).length using Nat.strong_induction_on
    generalizing n cursor with
  | h length ih =>
    have hload := load_of_wantCold hwant hnodup rfl
    have hroom := room_pos hlimit hwant
    generalize limit - (hotItems host db.rows filter limit cursor).length = room at hload hroom
    rcases Nat.lt_or_ge room (coldQueue host filter cold n cursor).length with hlt | hle
    · obtain ⟨pre, item, htake, hsplit, -⟩ := exists_cut hroom hlt.le
      rw [if_pos hlt, htake, getLast?_concat, ← htake] at hload
      have hmem : item ∈ coldQueue host filter cold n cursor :=
        hsplit ▸ mem_append_right pre mem_cons_self
      have hrest : coldQueue host filter cold (n + 1) (some (buildColdCursor item)) =
          (coldQueue host filter cold n cursor).drop room :=
        (coldQueue_later hmem n.le_succ).trans (coldQueue_next hnodup hsplit)
      have hless : (coldQueue host filter cold (n + 1) (some (buildColdCursor item))).length <
        length := by
        rw [hrest, length_drop, ← hlength]
        exact Nat.sub_lt (hroom.trans hlt) hroom
      have hwalk := ih _ hless rfl (by rw [hrest]; exact hnodup.sublist ((drop_sublist _ _).map _)) rfl
      rw [hotItems_resumed rfl, nil_append, hrest] at hwalk
      have hwhole := Walk.next hload rfl hwalk
      rwa [append_assoc, take_append_drop] at hwhole
    · rw [if_neg (not_lt.2 hle), take_of_length_le hle] at hload
      exact Walk.last hload rfl

/-! ## The table -/

theorem cursorBound_le (row : AccessLogRow) : cursorBound row ≤ row.key := by
  refine Prod.Lex.toLex_le_toLex.2 ?_
  have hle : 1000 * (row.createdAt / 1000) ≤ row.createdAt := Int.mul_ediv_self_le (by decide)
  rcases hle.lt_or_eq with hlt | heq
  · exact .inl hlt
  · exact .inr ⟨heq, le_rfl⟩

/-- The cursor of a row of the table leaves, of what comes after it, what is below its bound. -/
theorem hotQueue_next {pre post : List AccessLogRow}
    (hsplit : hotQueue host filter db cursor = pre ++ row :: post) :
    hotQueue host filter db (some (buildHotCursor (toAccessLogItem row))) =
      post.filter (fun row' => decide (row'.key < cursorBound row)) := by
  have hlatest : Latest key (pre ++ row :: post) := hsplit ▸ latest_hotQueue
  have hrow : belowHotCursor cursor row :=
    (mem_filter.1 (hsplit ▸ mem_append_right pre mem_cons_self : row ∈ hotQueue host filter db cursor)).2
  have hbelow (row' : AccessLogRow) (hlt : row'.key < cursorBound row) : belowHotCursor cursor row' := by
    cases cursor with
    | none => rfl
    | some cursor =>
      rw [belowHotCursor, Option.all_some, decide_eq_true_iff] at hrow ⊢
      exact (hlt.trans_le (cursorBound_le row)).trans hrow
  rw [← hlatest.filter_rounded (cursorBound_le row), ← hsplit, hotQueue, hotQueue, filter_filter]
  refine filter_congr fun row' _ => ?_
  rw [Bool.eq_iff_iff, Bool.and_eq_true, belowHotCursor, Option.all_some, decide_eq_true_iff,
    decide_eq_true_iff]
  exact ⟨fun hlt => ⟨hlt, hbelow row' hlt⟩, And.left⟩

/-! ## Whole walks -/

/-- No row of what is left of the table is missed, and the archive is come to. -/
def HotKept (host : TextHost) (filter : AccessLogFilter)
    (cold : Option (TenantCold Body filter.tenantToScan))
    (limit n : ℕ) (rows : List AccessLogRow) : Prop :=
  CutsKept key cursorBound limit rows ∧
    (rows ≠ [] → limit ∣ rows.length → coldReadable host filter cold (n + rows.length / limit) = [])

/-- All items of what is left of the table and of the archive, or fewer. -/
structure WalkGives (host : TextHost) (filter : AccessLogFilter)
    (cold : Option (TenantCold Body filter.tenantToScan))
    (limit n : ℕ) (rows : List AccessLogRow) (items : List AccessLogItem) : Prop where
  all : HotKept host filter cold limit n rows →
    items = rows.map toAccessLogItem ++ coldQueue host filter cold (n + rows.length / limit) none
  fewer : ¬ HotKept host filter cold limit n rows →
    items.length < rows.length + (coldReadable host filter cold (n + rows.length / limit)).length

theorem coldQueue_of_hot (hsource : resumesCold cursor = false) : coldQueue host filter cold n cursor =
    sort AccessLogItem.key ((coldReadable host filter cold n).map toAccessLogItem) := by
  rw [coldQueue, filter_eq_self.2 fun item _ => beforeCursor_of_hot hsource item]

theorem length_coldQueue_none :
    (coldQueue host filter cold n none).length = (coldReadable host filter cold n).length := by
  rw [coldQueue_of_hot rfl, (sort_perm _ _).length_eq, length_map]

theorem WalkGives.length_le (h : WalkGives host filter cold limit n rows items) :
    items.length ≤ rows.length + (coldReadable host filter cold (n + rows.length / limit)).length := by
  by_cases hkept : HotKept host filter cold limit n rows
  · rw [h.all hkept, length_append, length_map, length_coldQueue_none]
  · exact (h.fewer hkept).le

theorem pages_drop (hlimit : 0 < limit) (hlt : limit < rows.length) :
    n + 1 + (rows.drop limit).length / limit = n + rows.length / limit := by
  rw [length_drop, Nat.div_eq_sub_div hlimit hlt.le, Nat.add_assoc, Nat.add_comm 1]

/-- The first cut, and what is left after it. -/
theorem hotKept_iff (hlimit : 0 < limit) (hlt : limit < rows.length)
    (hlast : rows[limit - 1]? = some row) : HotKept host filter cold limit n rows ↔
      (∀ next ∈ (rows.drop limit).head?, next.key < cursorBound row) ∧
        HotKept host filter cold limit (n + 1) (rows.drop limit) := by
  have hne : rows ≠ [] := length_pos_iff.1 (hlimit.trans hlt)
  have hne' : rows.drop limit ≠ [] := length_pos_iff.1 (by rw [length_drop]; exact Nat.sub_pos_of_lt hlt)
  have hdvd : limit ∣ rows.length ↔ limit ∣ (rows.drop limit).length := by
    rw [length_drop]
    exact (Nat.dvd_sub_iff_left hlt.le dvd_rfl).symm
  have hfirst : (∀ last ∈ rows[limit - 1]?, ∀ next ∈ rows[limit]?, next.key < cursorBound last) ↔
      ∀ next ∈ (rows.drop limit).head?, next.key < cursorBound row := by
    rw [hlast, head?_drop]
    exact ⟨fun h => h row rfl, fun h last hmem => Option.some.inj hmem ▸ h⟩
  rw [HotKept, HotKept, cutsKept_iff hlimit, hfirst, and_assoc, pages_drop hlimit hlt, hdvd]
  exact and_congr_right fun _ => and_congr_right fun _ => ⟨fun h _ => h hne, fun h _ => h hne'⟩

theorem length_page_lt {k : ℕ} (h : items.length < (rows.drop limit).length + k) :
    ((rows.take limit).map toAccessLogItem ++ items).length < rows.length + k := by
  rw [length_append, length_map]
  calc (rows.take limit).length + items.length
      < (rows.take limit).length + ((rows.drop limit).length + k) := Nat.add_lt_add_left h _
    _ = rows.length + k := by rw [← Nat.add_assoc, ← length_append, take_append_drop]

/-- A page that is followed by all that is left. -/
theorem WalkGives.page (hlimit : 0 < limit) (hlt : limit < rows.length)
    (hlast : rows[limit - 1]? = some row)
    (hhead : ∀ next ∈ (rows.drop limit).head?, next.key < cursorBound row)
    (h : WalkGives host filter cold limit (n + 1) (rows.drop limit) items) :
    WalkGives host filter cold limit n rows ((rows.take limit).map toAccessLogItem ++ items) := by
  refine ⟨fun hkept => ?_, fun hkept => ?_⟩
  · have hkept := ((hotKept_iff hlimit hlt hlast).1 hkept).2
    rw [h.all hkept, pages_drop hlimit hlt, ← append_assoc, ← map_append, take_append_drop]
  · have hkept : ¬ HotKept host filter cold limit (n + 1) (rows.drop limit) := fun hkept' =>
      hkept ((hotKept_iff hlimit hlt hlast).2 ⟨hhead, hkept'⟩)
    have hfewer := h.fewer hkept
    rw [pages_drop hlimit hlt] at hfewer
    exact length_page_lt hfewer

/-- A page that is followed by fewer rows. -/
theorem WalkGives.missing (hlimit : 0 < limit) (hlt : limit < rows.length)
    (hlast : rows[limit - 1]? = some row)
    (hhead : ¬ ∀ next ∈ (rows.drop limit).head?, next.key < cursorBound row)
    (h : items.length < (rows.drop limit).length +
      (coldReadable host filter cold (n + rows.length / limit)).length) :
    WalkGives host filter cold limit n rows ((rows.take limit).map toAccessLogItem ++ items) :=
  ⟨fun hkept => absurd ((hotKept_iff hlimit hlt hlast).1 hkept).1 hhead, fun _ => length_page_lt h⟩

/-- A walk from a page of the table on ends, and it gives all, unless rows are missed. -/
theorem exists_walk (hlimit : 0 < limit) (hsource : resumesCold cursor = false)
    (hnodup : ((coldReadable host filter cold
      (n + (hotQueue host filter db cursor).length / limit)).map (·.id)).Nodup) :
    ∃ items, Walk (loadPage host filter db cold limit) n cursor items ∧
      WalkGives host filter cold limit n (hotQueue host filter db cursor) items := by
  induction hlength : (hotQueue host filter db cursor).length using Nat.strong_induction_on
    generalizing n cursor with
  | h length ih =>
    rcases Nat.lt_trichotomy (hotQueue host filter db cursor).length limit with hlt | heq | hgt
    · -- The page has room, and the walk goes on in the archive.
      have hpage : (hotQueue host filter db cursor).length / limit = 0 := Nat.div_eq_of_lt hlt
      rw [hpage, Nat.add_zero] at hnodup
      have hwant : wantCold host db.rows filter limit cursor := by
        rw [wantCold, hotHasMore_eq hsource, hotItems_eq hsource, length_map, length_take,
          decide_eq_false hlt.le.not_gt, decide_eq_true ((min_le_right _ _).trans_lt hlt)]
        exact Bool.or_true _
      have hwalk := walk_cold hlimit hwant (nodup_coldQueue cursor hnodup)
      rw [hotItems_eq hsource, take_of_length_le hlt.le, coldQueue_of_hot hsource] at hwalk
      refine ⟨_, hwalk, fun _ => ?_, fun hkept => absurd ⟨.of_le hlt.le, fun hne hdvd => ?_⟩ hkept⟩
      · rw [hpage, Nat.add_zero, coldQueue_of_hot rfl]
      · exact absurd (Nat.le_of_dvd (length_pos_iff.2 hne) hdvd) (not_le.2 hlt)
    · -- The page is full and the last one.
      have hpage : (hotQueue host filter db cursor).length / limit = 1 := by
        rw [heq, Nat.div_self hlimit]
      have hload := load_of_hotQueue cold n hsource heq.ge
      rw [if_neg heq.le.not_gt, take_of_length_le heq.le] at hload
      have hne : hotQueue host filter db cursor ≠ [] := length_pos_iff.1 (heq.symm ▸ hlimit)
      refine ⟨_, .last hload rfl, fun hkept => ?_, fun hkept => ?_⟩
      · rw [coldQueue_of_hot rfl, hkept.2 hne ⟨1, heq.trans (Nat.mul_one limit).symm⟩]
        exact (append_nil _).symm
      · rw [length_map]
        refine Nat.lt_add_of_pos_right (length_pos_iff.2 fun hnone => hkept ?_)
        exact ⟨.of_le heq.le, fun _ _ => hnone⟩
    · -- There is a next page of the table, which may leave out the first of what is left.
      obtain ⟨pre, row, htake, hsplit, hlast⟩ := exists_cut hlimit hgt.le
      have hload := load_of_hotQueue cold n hsource hgt.le
      rw [if_pos hgt, htake, map_append, map_singleton, getLast?_concat, ← map_singleton,
        ← map_append, ← htake] at hload
      have hnext := hotQueue_next hsplit
      have hpages := Nat.div_eq_sub_div hlimit hgt.le
      have hfewer : (hotQueue host filter db (some (buildHotCursor (toAccessLogItem row)))).length ≤
          (hotQueue host filter db cursor).length - limit := by
        rw [hnext, ← length_drop]
        exact length_filter_le _ _
      have hnumber : n + 1 +
        (hotQueue host filter db (some (buildHotCursor (toAccessLogItem row)))).length / limit ≤
          n + (hotQueue host filter db cursor).length / limit := by
        rw [hpages, Nat.add_assoc, Nat.add_comm 1]
        exact Nat.add_le_add_left (Nat.add_le_add_right (Nat.div_le_div_right hfewer) 1) n
      have hless := hlength ▸ hfewer.trans_lt (Nat.sub_lt (hlimit.trans hgt) hlimit)
      obtain ⟨items, hwalk, hgives⟩ := ih _ hless rfl (nodup_coldReadable_of_le hnumber hnodup) rfl
      refine ⟨_, .next hload rfl hwalk, ?_⟩
      by_cases hhead : ∀ next ∈ ((hotQueue host filter db cursor).drop limit).head?,
        next.key < cursorBound row
      · have hkept : ((hotQueue host filter db cursor).drop limit).filter
            (fun row' => decide (row'.key < cursorBound row)) =
              (hotQueue host filter db cursor).drop limit :=
          filter_eq_self (latest_hotQueue.sublist (drop_sublist _ _)) hhead
        rw [hnext, hkept] at hgives
        exact hgives.page hlimit hgt hlast hhead
      · refine .missing hlimit hgt hlast hhead
          (hgives.length_le.trans_lt (Nat.add_lt_add_of_lt_of_le ?_ ?_))
        · rw [hnext]
          refine length_filter_lt_length_iff_exists.2 ?_
          by_contra hall
          refine hhead fun next hmem => not_not.1 fun hge =>
            hall ⟨next, mem_of_mem_head? hmem, fun hlt => ?_⟩
          exact hge (of_decide_eq_true hlt)
        · exact length_coldReadable_le hnumber

theorem coldReadable_eq_coldMatching :
    coldReadable host filter cold n = coldMatching host filter cold n ↔
    ∀ row ∈ coldMatching host filter cold n, filter.coldFromTs ≤ row.createdMs := by
  rw [coldReadable, filter_eq_self]
  exact forall₂_congr fun row _ => decide_eq_true_iff

theorem expectedItems_ids : (expectedItems host filter db cold limit).map (·.id) =
    (hotMatching host filter db ++ coldMatching host filter cold
      (coldPageNumber host filter db limit)).map (·.id) :=
  map_id_toAccessLogItem _

theorem nodup_coldReadable (honce : ((expectedItems host filter db cold limit).map (·.id)).Nodup) :
    ((coldReadable host filter cold (coldPageNumber host filter db limit)).map (·.id)).Nodup := by
  rw [expectedItems_ids, map_append] at honce
  exact honce.of_append_right.sublist (filter_sublist.map _)

/-- The walk from the first page on. -/
theorem exists_walk_first (hlimit : 0 < limit)
    (honce : ((expectedItems host filter db cold limit).map (·.id)).Nodup) :
    ∃ items, Walk (loadPage host filter db cold limit) 0 none items ∧
      WalkGives host filter cold limit 0 (sort key (hotMatching host filter db)) items := by
  have hlength := (sort_perm key (hotMatching host filter db)).length_eq
  rw [← hotQueue_none]
  refine exists_walk hlimit rfl ?_
  rw [hotQueue_none, hlength, Nat.zero_add]
  exact nodup_coldReadable honce

theorem hotKept_first : HotKept host filter cold limit 0 (sort key (hotMatching host filter db)) ↔
    CutsKept key cursorBound limit (sort key (hotMatching host filter db)) ∧
      (hotMatching host filter db ≠ [] → limit ∣ (hotMatching host filter db).length →
        coldReadable host filter cold (coldPageNumber host filter db limit) = []) := by
  have hperm := sort_perm key (hotMatching host filter db)
  have hne : sort key (hotMatching host filter db) ≠ [] ↔ hotMatching host filter db ≠ [] := by
    rw [← length_pos_iff, hperm.length_eq, length_pos_iff]
  rw [HotKept, hperm.length_eq, Nat.zero_add, hne]
  exact Iff.rfl

/-- The walk gives every matching row once if and only if nothing is missed. -/
theorem returnsEachOnce_iff (host : TextHost) (filter : AccessLogFilter) (db : Table AccessLogRow.id)
    (cold : Option (TenantCold Body filter.tenantToScan)) {limit : ℕ} (hlimit : 1 ≤ limit) :
    ReturnsEachOnce host filter db cold limit ↔ Pageable host filter db cold limit := by
  have hlength := (sort_perm key (hotMatching host filter db)).length_eq
  have hpage : 0 + (sort key (hotMatching host filter db)).length / limit =
      coldPageNumber host filter db limit := by rw [hlength, Nat.zero_add, coldPageNumber]
  constructor
  · rintro ⟨items, hwalk, hperm, hnodup⟩
    have honce : ((expectedItems host filter db cold limit).map (·.id)).Nodup :=
      (hperm.map _).nodup_iff.1 hnodup
    obtain ⟨items', hwalk', hgives⟩ := exists_walk_first hlimit honce
    cases hwalk.unique hwalk'
    have hcount : items.length = (hotMatching host filter db).length +
        (coldMatching host filter cold (coldPageNumber host filter db limit)).length := by
      rw [hperm.length_eq, expectedItems, length_map, length_append]
    have hreadable : (coldReadable host filter cold (coldPageNumber host filter db limit)).length ≤
        (coldMatching host filter cold (coldPageNumber host filter db limit)).length :=
          length_filter_le _ _
    -- A walk that misses rows gives fewer than match.
    have hkept : HotKept host filter cold limit 0 (sort key (hotMatching host filter db)) := by
      by_contra hmissed
      have hfewer := hgives.fewer hmissed
      rw [hpage, hlength, hcount] at hfewer
      exact absurd (Nat.lt_of_add_lt_add_left hfewer) (not_lt.2 hreadable)
    have hall := congrArg length (hgives.all hkept)
    rw [length_append, length_map, length_coldQueue_none, hpage, hlength, hcount] at hall
    have heq : coldReadable host filter cold (coldPageNumber host filter db limit) =
        coldMatching host filter cold (coldPageNumber host filter db limit) :=
      filter_sublist.eq_of_length (Nat.add_left_cancel hall).symm
    obtain ⟨hcuts, hlast⟩ := hotKept_first.1 hkept
    exact ⟨honce, hcuts, fun hne hdvd => heq ▸ hlast hne hdvd, coldReadable_eq_coldMatching.1 heq⟩
  · intro h
    obtain ⟨items, hwalk, hgives⟩ := exists_walk_first hlimit h.once
    have heq := coldReadable_eq_coldMatching.2 h.since1970
    have hkept := hotKept_first.2 ⟨h.cuts, fun hne hdvd => heq ▸ h.lastPage hne hdvd⟩
    have hitems : items.Perm (expectedItems host filter db cold limit) := by
      rw [hgives.all hkept, hpage, coldQueue_of_hot rfl, heq, expectedItems, map_append]
      exact ((sort_perm _ _).map _).append (sort_perm _ _)
    exact ⟨items, hwalk, hitems, (hitems.map _).nodup_iff.2 h.once⟩

end

/-! ### Pages that miss rows -/

def textHost : TextHost where
  ilike _ _ := false
  toLowerCase s := s

/-- All that is logged for a tenant. -/
def acmeFilter : AccessLogFilter where
  orgId := some (js "acme")
  actorType := none
  actorId := none
  action := none
  source := none
  outcome := none
  targetType := none
  targetId := none
  fromTimestamp := none
  toTimestamp := none
  q := none
  agentLabel := none
  agentOnly := false

def acmeRow (id : ℕ) (createdAt : ℤ) : AccessLogRow where
  id
  orgId := some (js "acme")
  routingKey := some (js "github:1")
  actorType := js "user"
  actorId := js "u-1"
  actorMeta := none
  action := js "run.detail.read"
  targetType := none
  targetId := none
  requestId := none
  source := js "platform_proxy"
  outcome := js "allowed"
  errorMessage := none
  agentLabel := none
  createdAt

def acmeReadHost : ReadHost AccessLogRow (List AccessLogRow) where
  codec := { encode := id, decode := id, decode_encode := fun _ => rfl
             sha256 := fun _ => js "9f86d081" }
  adapter := { rowId := fun row => .text (js (toString row.id)), rowTimestamp := createdMs }
  sortManifests := id
  sortManifests_perm := Perm.refl

/-- One row of noon of 2026-04-24. -/
def acmeChunk : ArchivedChunk AccessLogRow where
  tenantId := js "acme"
  partitionDate := js "2026-04-24"
  bucket := none
  chunkId := js "0123456789abcdef"
  first := acmeRow 1 1777032000000000
  rest := []

def acmeArchive : Archive acmeReadHost accessLogs where
  chunks := [acmeChunk]
  valid := forall_mem_singleton.2 ⟨by decide, by decide, by decide, by decide⟩
  day := forall_mem_singleton.2 (forall_mem_singleton.2 (by decide))
  apart := nodup_singleton _

/-- Its warm cutoff is the first of June 2026. -/
def acmeCold : TenantCold (List AccessLogRow) acmeFilter.tenantToScan where
  host := acmeReadHost
  rowTimestamp _ := rfl
  store := accessLogs
  archive := acmeArchive
  own := forall_mem_singleton.2 rfl
  warmCutoff _ := 1780272000000
  warmCutoff_le _ _ _ := le_refl _
  early _ := (by decide : utcYear (1780272000000 - 1) ≤ 9999)
  reads _ args := expectedRows acmeReadHost accessLogs acmeArchive.objects args
    (relevantManifests acmeReadHost args (fetchedManifests acmeArchive args))
  reads_end _ args := by
    obtain ⟨s, hreach, hfinished⟩ := exists_finished acmeArchive args ⟨_, rfl, .refl⟩
    exact ⟨s, hreach, hfinished, ((acmeArchive.intact args).reachable hreach).yielded_eq hfinished⟩

/-- A row of noon of 2026-06-24. -/
def recentTable : Table AccessLogRow.id where
  rows := [acmeRow 2 1782302400000000]
  nodup := nodup_singleton _

/-- Two rows of one millisecond. -/
def tightTable : Table AccessLogRow.id where
  rows := [acmeRow 2 1782302400000456, acmeRow 1 1782302400000400]
  nodup := by decide

/-- Three rows, two of them of one millisecond. -/
def busyTable : Table AccessLogRow.id where
  rows := [acmeRow 4 1782302400000456, acmeRow 3 1782302400000400, acmeRow 2 1782298800000000]
  nodup := by decide

/-- The rows of one millisecond are on the first page, and on the second one is room for the
archived row. -/
theorem returnsEachOnce_with_room :
    (expectedItems textHost acmeFilter busyTable (some acmeCold) 2).map (·.id) = [4, 3, 2, 1] ∧
      ReturnsEachOnce textHost acmeFilter busyTable (some acmeCold) 2 := by
  refine ⟨by decide,
    (returnsEachOnce_iff textHost acmeFilter busyTable (some acmeCold) (by decide)).2 ?_⟩
  have hcuts : CutsKept key cursorBound 2 (sort key (hotMatching textHost acmeFilter busyTable)) :=
    (cutsKept_iff (by decide)).2 ⟨by decide, .of_le (by decide)⟩
  exact ⟨by decide, hcuts, fun _ hdvd => absurd hdvd (by decide), by decide⟩

/-- A table whose last page is exactly full ends the walk before the archive, and a row of the same
millisecond as the last one of a page is skipped. -/
theorem exists_row_not_returned : ¬ ReturnsEachOnce textHost acmeFilter recentTable (some acmeCold) 1 ∧
    ¬ ReturnsEachOnce textHost acmeFilter tightTable (none : Option (TenantCold Unit _)) 1 := by
  constructor
  · rintro ⟨items, hwalk, hperm, -⟩
    have hload : loadPage textHost acmeFilter recentTable (some acmeCold) 1 0 none =
        .ok { items := [toAccessLogItem (acmeRow 2 1782302400000000)], nextCursor := none } := rfl
    cases hwalk.unique (.last hload rfl)
    exact absurd hperm.length_eq (by decide)
  · rintro ⟨items, hwalk, hperm, -⟩
    have hload : loadPage textHost acmeFilter tightTable (none : Option (TenantCold Unit _)) 1 0 none =
        .ok { items := [toAccessLogItem (acmeRow 2 1782302400000456)]
              nextCursor := some { source := .hot, createdAt := 1782302400000, id := 2 } } := rfl
    have hload' : loadPage textHost acmeFilter tightTable (none : Option (TenantCold Unit _)) 1 1
        (some { source := .hot, createdAt := 1782302400000, id := 2 }) =
          .ok { items := [], nextCursor := none } := rfl
    cases hwalk.unique (.next hload rfl (.last hload' rfl))
    exact absurd hperm.length_eq (by decide)

end Kici.AccessLog
