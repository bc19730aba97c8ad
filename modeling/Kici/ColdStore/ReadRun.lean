import Kici.ColdStore.ReadThrough

/-!
# Every order of the loads

Where no load fails, a read gives the same rows in every order in which its loads end: the days of
the relevant manifests, one after the other, each sorted (`expectedRows`). What holds on the way
(`FetchSound`) is kept by every step (`FetchSound.step`). A read is never stuck before its end
(`FetchSound.exists_step`), and every read ends (`fetchRange_ends`).
-/

namespace Kici.ColdStore

open List MapState DayLoad Option

variable {Row Body : Type} (host : ReadHost Row Body) (store : TableStore) (objects : ObjectStore Body)
  (args : FetchRangeArgs) {s : FetchState Row} {α : Type}

/-- What a load gives. -/
def loadedRows (manifest : ChunkManifest) : List Row :=
  match loadChunk host store objects args manifest with
  | .ok rows => rows
  | .error _ => []

def rowsOfDay (relevant : List ChunkManifest) (day : JsString) : List Row :=
  dayRows host args ((dayManifests args relevant day).map (loadedRows host store objects args))

/-- The rows of the days in turn. -/
def expectedRows (relevant : List ChunkManifest) : List Row :=
  (dayOrder args relevant).flatMap (rowsOfDay host store objects args relevant)

/-- No load fails: the manifests that are fetched, and the rows of those that are relevant. -/
structure Intact (fetched : List ChunkManifest) : Prop where
  manifests : (candidateKeys store objects args).map (getManifest objects) = fetched.map .ok
  chunks : ∀ manifest ∈ relevantManifests host args fetched,
    loadChunk host store objects args manifest = .ok (loadedRows host store objects args manifest)

/-- The days that were read, those that are loaded, and those that come. -/
structure DaysSound (relevant : List ChunkManifest) (nextDay : ℕ) (pending : List (DayLoad Row))
    (yielded : List Row) : Prop where
  window : ∃ read started, dayOrder args relevant = read ++ started ++
    (dayOrder args relevant).drop nextDay ∧
    yielded = read.flatMap (rowsOfDay host store objects args relevant) ∧
    pending.map (·.manifests) = started.map (dayManifests args relevant)
  sound : ∀ load ∈ pending, load.chunks.Sound (loadChunk host store objects args) load.manifests
  ahead : pending = [] → (dayOrder args relevant).length ≤ nextDay

/-- What holds in every order. -/
def FetchSound (fetched : List ChunkManifest) : FetchState Row → Prop
  | .manifests m => m.Sound (getManifest objects) (candidateKeys store objects args) ∧ m.inFlight ≠ []
  | .days relevant nextDay pending yielded => relevant = relevantManifests host args fetched ∧
      DaysSound host store objects args relevant nextDay pending yielded
  | .thrown _ => False

variable {host store objects args} {fetched relevant : List ChunkManifest} {nextDay : ℕ}
  {pending : List (DayLoad Row)} {yielded read started : List Row}

/-- What comes behind the first of the rest. -/
theorem drop_add_length_take (l : List α) (n k : ℕ) :
    l.drop (n + ((l.drop n).take k).length) = (l.drop n).drop k := by
  have hleft : ((l.drop n).take k ++ (l.drop n).drop k).drop ((l.drop n).take k).length =
    (l.drop n).drop k :=
    drop_left
  rw [take_append_drop] at hleft
  rw [← drop_drop]
  exact hleft

theorem DaysSound.fill (days ahead : List JsString)
    (hdays : dayOrder args relevant = days ++ ahead ++ (dayOrder args relevant).drop nextDay)
    (hyielded : yielded = days.flatMap (rowsOfDay host store objects args relevant))
    (hpending : pending.map (·.manifests) = ahead.map (dayManifests args relevant))
    (hsound : ∀ load ∈ pending, load.chunks.Sound (loadChunk host store objects args) load.manifests) :
    ∃ next : List JsString, fill args relevant nextDay pending yielded =
        .days relevant (nextDay + next.length) (pending ++ next.map (startDay args relevant)) yielded ∧
      DaysSound host store objects args relevant (nextDay + next.length)
        (pending ++ next.map (startDay args relevant)) yielded := by
  refine ⟨((dayOrder args relevant).drop nextDay).take (READ_THROUGH_CONCURRENCY - pending.length),
    rfl, ?_⟩
  generalize hnext : ((dayOrder args relevant).drop nextDay).take
    (READ_THROUGH_CONCURRENCY - pending.length) = next
  have hrest : (dayOrder args relevant).drop nextDay =
      next ++ (dayOrder args relevant).drop (nextDay + next.length) := by
    rw [← hnext, drop_add_length_take, take_append_drop]
  refine ⟨⟨days, ahead ++ next, ?_, hyielded, ?_⟩, fun load hmem => ?_, fun hempty => ?_⟩
  · rw [← append_assoc days, append_assoc, ← hrest]
    exact hdays
  · rw [map_append, map_append, hpending, List.map_map]
    rfl
  · rcases mem_append.1 hmem with hmem | hmem
    · exact hsound load hmem
    · obtain ⟨day, -, rfl⟩ := List.mem_map.1 hmem
      exact sound_start _ _ (by decide)
  · obtain ⟨hnone, hno⟩ := append_eq_nil_iff.1 hempty
    have hnil : next = [] := map_eq_nil_iff.1 hno
    rw [hnone] at hnext
    rw [hnil, length_nil, Nat.add_zero]
    rcases take_eq_nil_iff.1 (hnext.trans hnil) with hzero | hdrop
    · cases hzero
    · exact drop_eq_nil_iff.1 hdrop

theorem fetchSound_fill (days ahead : List JsString)
    (hrelevant : relevant = relevantManifests host args fetched)
    (hdays : dayOrder args relevant = days ++ ahead ++ (dayOrder args relevant).drop nextDay)
    (hyielded : yielded = days.flatMap (rowsOfDay host store objects args relevant))
    (hpending : pending.map (·.manifests) = ahead.map (dayManifests args relevant))
    (hsound : ∀ load ∈ pending, load.chunks.Sound (loadChunk host store objects args) load.manifests) :
    FetchSound host store objects args fetched (fill args relevant nextDay pending yielded) := by
  obtain ⟨next, heq, hfilled⟩ := DaysSound.fill days ahead hdays hyielded hpending hsound
  rw [heq]
  exact ⟨hrelevant, hfilled⟩

theorem filterMap_id_map_some (l : List α) : (l.map some).filterMap id = l := by
  rw [filterMap_map]
  exact filterMap_some

theorem Intact.afterManifest (hintact : Intact host store objects args fetched)
    {m : MapState ChunkManifest ColdStoreError}
    (hsound : m.Sound (getManifest objects) (candidateKeys store objects args)) :
    FetchSound host store objects args fetched (afterManifest host args m) := by
  rw [ColdStore.afterManifest, hsound.not_failed hintact.manifests]
  dsimp only
  split
  next hdone =>
    rw [hsound.out_eq hintact.manifests hdone, filterMap_id_map_some]
    exact fetchSound_fill [] [] rfl (nil_append _).symm rfl rfl nofun
  next hbusy => exact ⟨hsound, hbusy⟩

/-- The day that is read gives its rows. -/
theorem Intact.dayRows_eq (hintact : Intact host store objects args fetched)
    (hrelevant : relevant = relevantManifests host args fetched) {day : JsString} {load : DayLoad Row}
    (hload : load.manifests = dayManifests args relevant day)
    (hsound : load.chunks.Sound (loadChunk host store objects args) load.manifests) :
    load.chunks.failed = none ∧ (load.chunks.inFlight = [] →
      dayRows host args (load.chunks.out.filterMap id) = rowsOfDay host store objects args
      relevant day) := by
  have hmanifests : load.manifests.map (loadChunk host store objects args) =
      (load.manifests.map (loadedRows host store objects args)).map .ok := by
    rw [List.map_map]
    refine map_congr_left fun manifest hmem => hintact.chunks manifest ?_
    rw [hload, dayManifests] at hmem
    rw [← hrelevant]
    cases horder : args.order with
    | asc =>
      rw [horder] at hmem
      exact (mem_filter.1 hmem).1
    | desc =>
      rw [horder] at hmem
      exact (mem_filter.1 (mem_reverse.1 hmem)).1
  refine ⟨hsound.not_failed hmanifests, fun hdone => ?_⟩
  rw [hsound.out_eq hmanifests hdone, filterMap_id_map_some, hload]
  rfl

/-- A load of a day in the window ends. -/
theorem chunk_of_step {day i : ℕ} {t : FetchState Row}
    (hstep : (fetchRange host store objects args).step (.days relevant nextDay pending yielded)
      (.chunk day i) = some t) :
    ∃ load chunks, pending[day]? = some load ∧
      load.chunks.complete (loadChunk host store objects args) load.manifests i = some chunks ∧
      t = .days relevant nextDay (pending.set day { load with chunks }) yielded := by
  rw [fetchRange] at hstep
  cases hload : pending[day]? with
  | none =>
    cases pending <;> simp only [fetchStep, hload] at hstep <;> cases hstep
  | some load =>
    have hmap : (load.chunks.complete (loadChunk host store objects args) load.manifests i).map
      (fun chunks =>
        FetchState.days relevant nextDay (pending.set day { load with chunks }) yielded) = some t := by
      cases pending <;> simpa only [fetchStep, hload] using hstep
    obtain ⟨chunks, hchunks, rfl⟩ := map_eq_some_iff.1 hmap
    exact ⟨load, chunks, rfl, hchunks, rfl⟩

/-- The reader takes the first day of the window, or its error. -/
theorem consume_of_step {load : DayLoad Row} {t : FetchState Row}
    (hstep : (fetchRange host store objects args).step
      (.days relevant nextDay (load :: pending) yielded) .consume = some t) :
    (∃ error, load.chunks.failed = some error ∧ t = .thrown error) ∨
      load.chunks.failed = none ∧ load.chunks.inFlight = [] ∧
        t = fill args relevant nextDay pending
        (yielded ++ dayRows host args (load.chunks.out.filterMap id)) := by
  rw [fetchRange] at hstep
  simp only [fetchStep] at hstep
  split at hstep
  next error herror =>
    cases hstep
    exact .inl ⟨error, herror, rfl⟩
  next hok =>
    split at hstep
    next hdone =>
      cases hstep
      exact .inr ⟨hok, hdone, rfl⟩
    next => cases hstep

/-- What holds on the way is kept by every step. -/
theorem FetchSound.step (hintact : Intact host store objects args fetched) {s t : FetchState Row}
    {a : FetchAction} (h : FetchSound host store objects args fetched s)
    (hstep : (fetchRange host store objects args).step s a = some t) :
    FetchSound host store objects args fetched t := by
  cases s with
  | thrown error => exact absurd h id
  | manifests m =>
    cases a with
    | manifest i =>
      obtain ⟨m', hm', rfl⟩ := map_eq_some_iff.1 hstep
      exact hintact.afterManifest (h.1.complete hm')
    | chunk day i => cases hstep
    | consume => cases hstep
  | days relevant nextDay pending yielded =>
    obtain ⟨hrelevant, ⟨read, started, hdays, hyielded, hmanifests⟩, hsound, hahead⟩ := h
    cases a with
    | manifest i => cases pending <;> cases hstep
    | chunk day i =>
      obtain ⟨load, chunks, hload, hchunks, rfl⟩ := chunk_of_step hstep
      have hmem := mem_of_getElem? hload
      refine ⟨hrelevant, ⟨read, started, hdays, hyielded, ?_⟩, fun load' hmem' => ?_, fun hempty => ?_⟩
      · -- The day keeps its manifests.
        rw [← hmanifests, map_set]
        refine ext_getElem? fun k => ?_
        rw [getElem?_set]
        split
        next heq =>
          rw [getElem?_map, ← heq, hload, if_pos (by
            rw [length_map]
            exact (List.getElem?_eq_some_iff.1 hload).1)]
          rfl
        next => rfl
      · rcases mem_or_eq_of_mem_set hmem' with hmem' | rfl
        · exact hsound load' hmem'
        · exact (hsound load hmem).complete hchunks
      · rw [set_eq_nil_iff] at hempty
        rw [hempty] at hmem
        cases hmem
    | consume =>
      cases pending with
      | nil => cases hstep
      | cons load pending =>
        cases started with
        | nil => cases hmanifests
        | cons day started =>
          obtain ⟨hload, hmanifests⟩ := List.cons.inj hmanifests
          obtain ⟨hok, hrows⟩ := hintact.dayRows_eq hrelevant hload (hsound load mem_cons_self)
          rcases consume_of_step hstep with ⟨error, herror, -⟩ | ⟨-, hdone, rfl⟩
          · rw [hok] at herror
            cases herror
          · refine fetchSound_fill (read ++ [day]) started hrelevant ?_ ?_ hmanifests
              fun load' hmem => hsound load' (mem_cons_of_mem _ hmem)
            · rw [append_assoc read, singleton_append]
              exact hdays
            · rw [hrows hdone, hyielded, flatMap_append, flatMap_singleton]

/-- What holds of every state of every read. -/
theorem Intact.reachable (hintact : Intact host store objects args fetched)
    (h : (fetchRange host store objects args).Reachable System.anyStep s) :
    FetchSound host store objects args fetched s := by
  refine h.invariant (fun s hs => ?_) fun s a t hs _ hstep => hs.step hintact hstep
  rw [Set.mem_singleton_iff.1 hs]
  exact hintact.afterManifest (sound_start _ _ (by decide))

/-- A read that has ended has given the rows of the days in turn. -/
theorem FetchSound.yielded_eq (h : FetchSound host store objects args fetched s)
    (hfinished : s.finished) :
    s.yielded = expectedRows host store objects args (relevantManifests host args fetched) := by
  cases s with
  | manifests m => cases hfinished
  | thrown error => cases hfinished
  | days relevant nextDay pending yielded =>
    obtain ⟨rfl, ⟨read, started, hdays, hyielded, hmanifests⟩, -, hahead⟩ := h
    obtain rfl := List.isEmpty_iff.1 hfinished
    obtain rfl := map_eq_nil_iff.1 hmanifests.symm
    rw [drop_eq_nil_iff.2 (hahead rfl), append_nil, append_nil] at hdays
    rw [expectedRows, hdays]
    exact hyielded

/-- On the way it has given the first of them. -/
theorem FetchSound.yielded_isPrefix (h : FetchSound host store objects args fetched s) :
    s.yielded <+: expectedRows host store objects args (relevantManifests host args fetched) := by
  cases s with
  | manifests | thrown => exact nil_prefix
  | days relevant nextDay pending yielded =>
    obtain ⟨rfl, ⟨read, started, hdays, hyielded, -⟩, -, -⟩ := h
    refine ⟨(started ++ (dayOrder args (relevantManifests host args fetched)).drop nextDay).flatMap
      (rowsOfDay host store objects args (relevantManifests host args fetched)), ?_⟩
    rw [expectedRows]
    conv_rhs => rw [hdays, append_assoc, flatMap_append]
    rw [← hyielded]
    rfl

/-- A read that has not ended goes on. -/
theorem FetchSound.exists_step (hintact : Intact host store objects args fetched)
    (h : FetchSound host store objects args fetched s) (hfinished : s.finished = false) :
    ∃ a t, (fetchRange host store objects args).step s a = some t := by
  cases s with
  | thrown error => exact absurd h id
  | manifests m =>
    obtain ⟨i, hi⟩ := exists_mem_of_ne_nil _ h.2
    obtain ⟨m', hm'⟩ := h.1.exists_complete hi
    exact ⟨.manifest i, _, map_eq_some_iff.2 ⟨m', hm', rfl⟩⟩
  | days relevant nextDay pending yielded =>
    obtain ⟨hrelevant, ⟨read, started, hdays, hyielded, hmanifests⟩, hsound, hahead⟩ := h
    cases pending with
    | nil => cases hfinished
    | cons load pending =>
      cases started with
      | nil => cases hmanifests
      | cons day started =>
        by_cases hdone : load.chunks.inFlight = []
        · have hok := (hintact.dayRows_eq hrelevant (List.cons.inj hmanifests).1
            (hsound load mem_cons_self)).1
          refine ⟨.consume, fill args relevant nextDay pending (yielded ++ dayRows host args
            (load.chunks.out.filterMap id)), ?_⟩
          rw [fetchRange]
          simp only [fetchStep, hok, if_pos hdone]
        · obtain ⟨i, hi⟩ := exists_mem_of_ne_nil _ hdone
          obtain ⟨chunks, hchunks⟩ := (hsound load mem_cons_self).exists_complete hi
          exact ⟨.chunk 0 i, _, map_eq_some_iff.2 ⟨chunks, hchunks, rfl⟩⟩

/-! ## Every read ends -/

/-- The ends and takings that a day is still to have. -/
def DayLoad.cost (load : DayLoad Row) : ℕ := load.chunks.remaining load.manifests + 1

def listCost (cost : α → ℕ) (l : List α) : ℕ := l.foldr (fun a total => cost a + total) 0

theorem listCost_append (cost : α → ℕ) (l l' : List α) :
    listCost cost (l ++ l') = listCost cost l + listCost cost l' := by
  induction l with
  | nil => exact (Nat.zero_add _).symm
  | cons a l ih =>
    have hcons : listCost cost (a :: (l ++ l')) = cost a + listCost cost (l ++ l') := rfl
    have hcons' : listCost cost (a :: l) = cost a + listCost cost l := rfl
    rw [cons_append, hcons, hcons', ih, Nat.add_assoc]

theorem listCost_map {α β : Type} (cost : β → ℕ) (f : α → β) (l : List α) :
    listCost cost (l.map f) = listCost (fun a => cost (f a)) l := by
  rw [listCost, foldr_map]
  rfl

theorem listCost_set {cost : α → ℕ} {l : List α} {k : ℕ} {a b : α} (ha : l[k]? = some a)
    (h : cost b < cost a) : listCost cost (l.set k b) < listCost cost l := by
  induction l generalizing k with
  | nil => cases ha
  | cons c l ih =>
    have hcons (x : α) (l : List α) : listCost cost (x :: l) = cost x + listCost cost l := rfl
    cases k with
    | zero =>
      cases ha
      rw [set_cons_zero, hcons, hcons]
      omega
    | succ k =>
      have hlt := ih ha
      rw [set_cons_succ, hcons, hcons]
      omega

/-- The cost of a day that is not loaded yet. -/
def dayCost (args : FetchRangeArgs) (relevant : List ChunkManifest) (day : JsString) : ℕ :=
  (dayManifests args relevant day).length + 1

/-- The phase of a read, and what it is still to have in it. -/
def FetchState.cost (store : TableStore) (objects : ObjectStore Body) (args : FetchRangeArgs) :
    FetchState Row → ℕ × ℕ
  | .manifests m => (2, m.remaining (candidateKeys store objects args))
  | .days relevant nextDay pending _ =>
    (1, listCost DayLoad.cost pending + listCost (dayCost args relevant)
      ((dayOrder args relevant).drop nextDay))
  | .thrown _ => (0, 0)

theorem cost_fill (relevant : List ChunkManifest) (nextDay : ℕ) (pending : List (DayLoad Row))
    (yielded : List Row) : (fill args relevant nextDay pending yielded).cost store objects args =
      (1, listCost cost pending +
        listCost (dayCost args relevant) ((dayOrder args relevant).drop nextDay)) := by
  rw [fill]
  generalize hnext : ((dayOrder args relevant).drop nextDay).take
    (READ_THROUGH_CONCURRENCY - pending.length) = next
  have hrest : (dayOrder args relevant).drop nextDay =
      next ++ (dayOrder args relevant).drop (nextDay + next.length) := by
    rw [← hnext, drop_add_length_take, take_append_drop]
  have hstart : ∀ day : JsString, (startDay args relevant day : DayLoad Row).cost =
    dayCost args relevant day :=
    fun day => congrArg (· + 1) (remaining_start _ _)
  have hnew : listCost cost (next.map (startDay args relevant) : List (DayLoad Row)) =
      listCost (dayCost args relevant) next := by
    rw [listCost_map]
    exact congrArg (fun cost => listCost cost next) (funext hstart)
  rw [FetchState.cost, listCost_append, hnew, hrest, listCost_append, Nat.add_assoc]

/-- Every step leads to a later phase, or leaves less to come. -/
theorem cost_step {s t : FetchState Row} {a : FetchAction}
    (hstep : (fetchRange host store objects args).step s a = some t) :
    Prod.Lex (· < ·) (· < ·) (t.cost store objects args) (s.cost store objects args) := by
  cases s with
  | thrown error => cases a <;> cases hstep
  | manifests m =>
    cases a with
    | manifest i =>
      obtain ⟨m', hm', rfl⟩ := map_eq_some_iff.1 hstep
      have hless := remaining_complete hm'
      rw [afterManifest]
      split
      · exact .left _ _ (by decide)
      · split
        · rw [cost_fill]
          exact .left _ _ (by decide)
        · exact .right _ (Nat.lt_of_succ_le hless.le)
    | chunk day i => cases hstep
    | consume => cases hstep
  | days relevant nextDay pending yielded =>
    cases a with
    | manifest i => cases pending <;> cases hstep
    | chunk day i =>
      obtain ⟨load, chunks, hload, hchunks, rfl⟩ := chunk_of_step hstep
      have hless := remaining_complete hchunks
      have hcost : cost { load with chunks } < load.cost := by
        rw [cost, cost]
        dsimp only
        omega
      exact .right _ (Nat.add_lt_add_right (listCost_set hload hcost) _)
    | consume =>
      cases pending with
      | nil => cases hstep
      | cons load pending =>
        rcases consume_of_step hstep with ⟨error, -, rfl⟩ | ⟨-, -, rfl⟩
        · exact .left _ _ (by decide)
        · rw [cost_fill]
          refine .right _ (Nat.add_lt_add_right ?_ _)
          have hcons : listCost DayLoad.cost (load :: pending) =
              load.chunks.remaining load.manifests + 1 + listCost cost pending := rfl
          omega

/-- No read goes on for ever. -/
theorem fetchRange_ends (host : ReadHost Row Body) (store : TableStore) (objects : ObjectStore Body)
    (args : FetchRangeArgs) :
    WellFounded fun t s : FetchState Row => ∃ a,
    (fetchRange host store objects args).step s a = some t := by
  have hlex : WellFounded (Prod.Lex (fun m n : ℕ => m < n) fun m n : ℕ => m < n) :=
    WellFounded.prod_lex Nat.lt_wfRel.wf Nat.lt_wfRel.wf
  exact Subrelation.wf (fun ⟨_, hstep⟩ => cost_step hstep)
    (InvImage.wf (FetchState.cost store objects args) hlex)

end Kici.ColdStore
