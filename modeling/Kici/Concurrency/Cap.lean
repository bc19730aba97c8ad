import Kici.Concurrency.QueueManager
import Kici.Foundation.System
import Mathlib.Data.List.Dedup
import Mathlib.Data.List.Perm.Subperm

/-!
# The cap of a concurrency group

Any number of coordinators acquire slots, wait for them, give them up and hand them on.
`tryDispatchNextQueued` hands a slot on that was given up before, in a transaction of its
own, and goes on to the next run that waits as long as the one it found has no agent any
more; all its calls run at the same time (`DispatchCall`).

A promotion does not look at the number of slots that are held. So `max` is kept as long
as every promotion finds room (`ConcurrencyState.PromotesWithin`, `cap_of_promotesWithin`),
which nothing makes sure of: between the end of a run and the promotion of the next one, a
third run may take the slot (`exists_cap_exceeded`). A promotion that finds no room breaks
the cap (`ConcurrencyQueueManager.promote_exceeds`).
-/

namespace Kici

open List ConcurrencyQueueManager Update ConcurrencyDb Table Bool

variable {row : ConcurrencyGroup}

/-- A call of `tryDispatchNextQueued` between two transactions, in its `i`th iteration. -/
inductive DispatchCall
  | dequeueNext (groupKey routingKey : String) (i : ℕ)
  /-- The run that was promoted has no agent any more. -/
  | markCompleted (groupKey routingKey runId : String) (i : ℕ)

/-- The bound on the iterations of `tryDispatchNextQueued`. -/
def MAX_ITERATIONS : ℕ := 32

structure ConcurrencyState where
  db : ConcurrencyDb
  /-- The slots given up for which `tryDispatchNextQueued` is still to be called. -/
  freed : List (String × String) := []
  calls : List DispatchCall := []

inductive ConcurrencyAction
  | acquireSlot (groupKey routingKey runId jobId id : String) (now : ℕ)
  | getActiveRuns (groupKey routingKey : String)
  | enqueue (opts : EnqueueOptions) (id : String) (now : ℕ)
  | releaseSlot (groupKey routingKey runId : String)
  | onJobComplete (groupKey routingKey runId : String)
  | cancelQueued (runId : String)
  | tryDispatchNextQueued (groupKey routingKey : String)
  /-- A call of `tryDispatchNextQueued` executes its next transaction; `connected` tells
  whether the run it promotes has a waiter, and an agent that is connected. -/
  | next (k : ℕ) (connected : Bool)
  /-- A run gets a status. One that is over stays over. -/
  | setRunStatus (runId : String) (status : ExecutionRunStatus)

namespace ConcurrencyState

variable (order : OrderBy ConcurrencyGroup.createdAt) (max : String → String → ℕ)
  (s : ConcurrencyState)

/-- The state after a transaction in which runs may give up slots of the group. -/
def release (groupKey routingKey : String) (db : ConcurrencyDb) : ConcurrencyState where
  db
  freed := s.freed ++
    (s.db.groups.rows.filter fun row => row.isIn groupKey routingKey .active &&
      !db.holdsSlot groupKey routingKey row.runId).map fun _ => (groupKey, routingKey)
  calls := s.calls

/-- The next transaction of a call, and the call afterwards, unless it is over. -/
def nextOf (connected : Bool) : DispatchCall → ConcurrencyDb × Option DispatchCall
  | .dequeueNext groupKey routingKey i =>
    if i < MAX_ITERATIONS then
      match dequeueNext order s.db groupKey routingKey with
      -- The transaction is rolled back, and the call fails.
      | none => (s.db, none)
      | some (none, db) => (db, none)
      | some (some next, db) =>
        (db, if connected then none else some (.markCompleted groupKey routingKey next.runId i))
    else (s.db, none)
  | .markCompleted groupKey routingKey runId i =>
    (markCompleted s.db groupKey routingKey runId,
      some (.dequeueNext groupKey routingKey (i + 1)))

open ConcurrencyQueueManager in
def step : ConcurrencyAction → Option ConcurrencyState
  | .acquireSlot groupKey routingKey runId jobId id now =>
    some (s.release groupKey routingKey
      (acquireSlot order s.db groupKey routingKey runId jobId (max groupKey routingKey) id now).2)
  | .getActiveRuns groupKey routingKey =>
    some (s.release groupKey routingKey (getActiveRuns order s.db groupKey routingKey).2)
  | .enqueue opts id now => some { s with db := enqueue s.db opts id now }
  | .releaseSlot groupKey routingKey runId =>
    some (s.release groupKey routingKey (releaseSlot s.db groupKey routingKey runId))
  | .onJobComplete groupKey routingKey runId =>
    match onJobComplete order s.db groupKey routingKey runId with
    | none => some s
    | some (_, db) => some { s with db }
  | .cancelQueued runId => some { s with db := cancelQueued s.db runId }
  | .tryDispatchNextQueued groupKey routingKey =>
    if s.freed.contains (groupKey, routingKey) then
      some { s with
        freed := s.freed.erase (groupKey, routingKey)
        calls := s.calls ++ [.dequeueNext groupKey routingKey 0] }
    else none
  | .next k connected =>
    match s.calls[k]? with
    | some call =>
      let (db, rest) := s.nextOf order connected call
      some { s with db, calls := s.calls.take k ++ rest.toList ++ s.calls.drop (k + 1) }
    | none => none
  | .setRunStatus runId status =>
    if s.db.finished runId then none
    else some { s with
      db := { s.db with executionRuns := (runId, status) :: s.db.executionRuns.filter (·.1 ≠ runId) } }

end ConcurrencyState

/-- The concurrency groups as a transition system, empty at first; `max` of a group does not
change. -/
def concurrencySystem (order : OrderBy ConcurrencyGroup.createdAt) (max : String → String → ℕ) :
    System ConcurrencyState ConcurrencyAction where
  init := {s | s.db.groups = empty ConcurrencyGroup.id ∧ s.freed = [] ∧ s.calls = []}
  step := ConcurrencyState.step order max

/-! ## The runs in a group -/

namespace ConcurrencyDb

variable (db : ConcurrencyDb) (groupKey routingKey : String)

/-- The runs that hold a slot of the group and are not over. -/
def liveRunIds : List String :=
  ((db.groups.rows.filter fun row =>
    row.isIn groupKey routingKey .active && !db.finished row.runId).map (·.runId)).dedup

variable {db} {db' : ConcurrencyDb} {groupKey routingKey} {runId : String}

theorem holdsSlot_iff : db.holdsSlot groupKey routingKey runId ↔
    ∃ row ∈ db.groups, row.isIn groupKey routingKey .active ∧ row.runId = runId := by
  simp [holdsSlot, mem_def]

theorem mem_liveRunIds : runId ∈ db.liveRunIds groupKey routingKey ↔
    db.holdsSlot groupKey routingKey runId ∧ db.finished runId = false := by
  simp only [liveRunIds, mem_dedup, mem_map, mem_filter, and_eq_true,
    not_eq_true', holdsSlot_iff, mem_def]
  constructor
  · rintro ⟨row, ⟨hrow, hactive, hlive⟩, rfl⟩
    exact ⟨⟨row, hrow, hactive, rfl⟩, hlive⟩
  · rintro ⟨⟨row, hrow, hactive, rfl⟩, hlive⟩
    exact ⟨row, ⟨hrow, hactive, hlive⟩, rfl⟩

theorem nodup_liveRunIds : (db.liveRunIds groupKey routingKey).Nodup := nodup_dedup _

/-- Runs that all stand in a list are at most as many. -/
theorem length_liveRunIds_le {l : List String} (h : db.liveRunIds groupKey routingKey ⊆ l) :
    (db.liveRunIds groupKey routingKey).length ≤ l.length :=
  (nodup_liveRunIds.subperm h).length_le

/-- No run has got a slot of the group, and none that was over is not over any more. -/
theorem liveRunIds_subset
    (hslot : ∀ r, db'.holdsSlot groupKey routingKey r → db.holdsSlot groupKey routingKey r)
    (hover : ∀ r, db.finished r → db'.finished r) :
    db'.liveRunIds groupKey routingKey ⊆ db.liveRunIds groupKey routingKey := by
  intro r hr
  rw [mem_liveRunIds] at hr ⊢
  exact ⟨hslot r hr.1, eq_false_iff.2 fun hfin => eq_false_iff.1 hr.2 (hover r hfin)⟩

/-- An update that makes no row active gives no slot. -/
theorem holdsSlot_of_update {u : Update ConcurrencyGroup.id}
    (hu : ∀ row, (u.set row).status ≠ .active)
    (h : (db.update u).holdsSlot groupKey routingKey runId) :
    db.holdsSlot groupKey routingKey runId := by
  obtain ⟨row, hrow, hactive, hrun⟩ := holdsSlot_iff.1 h
  obtain ⟨row, hmem, rfl⟩ := mem_map.1 hrow
  by_cases hg : u.guard row
  · rw [apply_of_guard hg] at hactive
    simp only [ConcurrencyGroup.isIn, decide_eq_true_eq] at hactive
    exact absurd hactive.2.2 (hu row)
  · rw [apply_of_not_guard (eq_false_iff.2 hg)] at hactive hrun
    exact holdsSlot_iff.2 ⟨row, hmem, hactive, hrun⟩

/-- An insertion gives a slot to the run of the new row at most. -/
theorem holdsSlot_of_insert {new : ConcurrencyGroup}
    (h : (db.insert new).holdsSlot groupKey routingKey runId) :
    db.holdsSlot groupKey routingKey runId ∨
      new.isIn groupKey routingKey .active ∧ new.runId = runId := by
  obtain ⟨row, hrow, hactive, hrun⟩ := holdsSlot_iff.1 h
  rcases mem_insertNew hrow with hmem | rfl
  · exact .inl (holdsSlot_iff.2 ⟨row, hmem, hactive, hrun⟩)
  · exact .inr ⟨hactive, hrun⟩

end ConcurrencyDb

/-! ## Promotions -/

namespace ConcurrencyQueueManager

open ConcurrencyDb

variable {order : OrderBy ConcurrencyGroup.createdAt} {db db' : ConcurrencyDb}
  {groupKey routingKey runId g rk : String} {job : Option QueuedConcurrencyJob}

/-- A promotion that finds the runs `others` in the group has room: nobody waits, or the run
that waits longest is over or one of them, or there are fewer than `max`. -/
def RoomFor (order : OrderBy ConcurrencyGroup.createdAt) (db : ConcurrencyDb)
    (groupKey routingKey : String) (max : ℕ) (others : List String) : Prop :=
  ∀ row, oldestQueued order db groupKey routingKey = some row →
    db.finished row.runId = true ∨ row.runId ∈ others ∨ others.length < max

theorem oldestQueued_mem
    (h : oldestQueued order db groupKey routingKey = some row) :
    row ∈ db.groups ∧ row.isIn groupKey routingKey .queued := by
  have hmem := (order.perm _).mem_iff.1 (mem_of_mem_head? h)
  exact mem_filter.1 hmem

/-- What a promotion does: nobody waits, or the run that waits longest gets the slot. -/
theorem promote_cases (h : promoteOldestQueued order db groupKey routingKey = some (job, db')) :
    db' = db ∨ ∃ row, oldestQueued order db groupKey routingKey = some row ∧
      db.holdsSlot groupKey routingKey row.runId = false ∧
      db' = db.update (promote row.id) := by
  rw [promoteOldestQueued] at h
  split at h
  · cases h
    exact .inl rfl
  · next row hrow =>
    split at h
    · cases h
    · next hslot =>
      cases h
      exact .inr ⟨row, hrow, eq_false_iff.2 hslot, rfl⟩

/-- The promoted row is the only one to become active. -/
theorem holdsSlot_promoted
    (hrow : oldestQueued order db groupKey routingKey = some row)
    (h : (db.update (promote row.id)).holdsSlot g rk runId) :
    db.holdsSlot g rk runId ∨ (g = groupKey ∧ rk = routingKey) ∧ runId = row.runId := by
  obtain ⟨r, hr, hactive, hrun⟩ := holdsSlot_iff.1 h
  obtain ⟨r, hmem, rfl⟩ := mem_map.1 hr
  by_cases hid : r.id = row.id
  · -- The table has one row of the id.
    obtain ⟨hrowmem, hqueued⟩ := oldestQueued_mem hrow
    obtain rfl : r = row := inj_on_of_nodup_map db.groups.nodup hmem hrowmem hid
    rw [apply_of_guard (by simp [promote])] at hactive hrun
    simp only [ConcurrencyGroup.isIn, promote, decide_eq_true_eq] at hactive hqueued
    exact .inr ⟨⟨hactive.1.symm.trans hqueued.1, hactive.2.1.symm.trans hqueued.2.1⟩, hrun.symm⟩
  · rw [apply_of_not_guard (by simpa [promote] using hid)] at hactive hrun
    exact .inl (holdsSlot_iff.2 ⟨r, hmem, hactive, hrun⟩)

/-- A promotion that has room keeps the group within `max`. -/
theorem liveRunIds_promoted (g rk : String) {max : ℕ}
    (hroom : RoomFor order db groupKey routingKey max (db.liveRunIds groupKey routingKey))
    (h : promoteOldestQueued order db groupKey routingKey = some (job, db')) :
    db'.liveRunIds g rk ⊆ db.liveRunIds g rk ∨
      (g = groupKey ∧ rk = routingKey) ∧ (db.liveRunIds g rk).length < max ∧
        ∃ r, db'.liveRunIds g rk ⊆ r :: db.liveRunIds g rk := by
  rcases promote_cases h with rfl | ⟨row, hrow, hslot, rfl⟩
  · exact .inl fun _ hr => hr
  · have hgiven : ∀ r ∈ (db.update (promote row.id)).liveRunIds g rk,
        r ∈ db.liveRunIds g rk ∨ ((g = groupKey ∧ rk = routingKey) ∧ r = row.runId) ∧
          db.finished row.runId = false := by
      intro r hr
      obtain ⟨hr, hlive⟩ := mem_liveRunIds.1 hr
      rcases holdsSlot_promoted hrow hr with hr | ⟨hgroup, rfl⟩
      · exact .inl (mem_liveRunIds.2 ⟨hr, hlive⟩)
      · exact .inr ⟨⟨hgroup, rfl⟩, hlive⟩
    rcases hroom row hrow with hfin | hmem | hlt
    · -- The run is over, so that it does not count.
      refine .inl fun r hr => (hgiven r hr).resolve_right ?_
      rintro ⟨-, hlive⟩
      rw [hfin] at hlive
      cases hlive
    · -- The run would hold two slots, so that it is not promoted.
      rw [(mem_liveRunIds.1 hmem).1] at hslot
      cases hslot
    · by_cases hgroup : g = groupKey ∧ rk = routingKey
      · obtain ⟨rfl, rfl⟩ := hgroup
        refine .inr ⟨⟨rfl, rfl⟩, hlt, row.runId, fun r hr => ?_⟩
        rcases hgiven r hr with hr | ⟨⟨-, rfl⟩, -⟩
        · exact mem_cons_of_mem _ hr
        · exact mem_cons_self
      · exact .inl fun r hr => (hgiven r hr).resolve_right fun h => hgroup h.1.1

/-! ## The other transactions -/

/-- Giving up slots gives none. -/
theorem liveRunIds_complete (guard : ConcurrencyGroup → Bool) :
    (db.update (complete guard)).liveRunIds g rk ⊆ db.liveRunIds g rk :=
  liveRunIds_subset (fun _ h => holdsSlot_of_update (fun _ h => by cases h) h) fun _ h => h

/-- A run that acquires a slot finds less than `max` other runs in the group. -/
theorem liveRunIds_acquireSlot {jobId id : String} {max now : ℕ} :
    (acquireSlot order db groupKey routingKey runId jobId max id now).2.liveRunIds g rk ⊆
        db.liveRunIds g rk ∨
      (g = groupKey ∧ rk = routingKey) ∧ (db.liveRunIds g rk).length < max ∧
        (acquireSlot order db groupKey routingKey runId jobId max id now).2.liveRunIds g rk ⊆
          runId :: db.liveRunIds g rk := by
  rw [acquireSlot]
  split
  · exact .inl fun _ hr => hr
  · simp only
    split
    · exact .inl (liveRunIds_complete _)
    · next hmax =>
      have hgiven : ∀ r ∈ ((activeRunIds order db groupKey routingKey).2.insert
          ⟨id, groupKey, runId, jobId, routingKey, .active, now⟩).liveRunIds g rk,
          r ∈ db.liveRunIds g rk ∨ (g = groupKey ∧ rk = routingKey) ∧ r = runId := by
        intro r hr
        obtain ⟨hr, hlive⟩ := mem_liveRunIds.1 hr
        rcases holdsSlot_of_insert hr with hr | ⟨hactive, rfl⟩
        · exact .inl (liveRunIds_complete _ (mem_liveRunIds.2 ⟨hr, hlive⟩))
        · simp only [ConcurrencyGroup.isIn, decide_eq_true_eq] at hactive
          exact .inr ⟨⟨hactive.1.symm, hactive.2.1.symm⟩, rfl⟩
      by_cases hgroup : g = groupKey ∧ rk = routingKey
      · obtain ⟨rfl, rfl⟩ := hgroup
        -- The list that was counted has all the runs that are not over.
        have hsub : db.liveRunIds g rk ⊆ (activeRunIds order db g rk).1 := by
          intro r hr
          obtain ⟨hr, hlive⟩ := mem_liveRunIds.1 hr
          obtain ⟨row, hmem, hactive, rfl⟩ := holdsSlot_iff.1 hr
          refine mem_map.2 ⟨row, mem_filter.2 ⟨?_, by simp [hlive]⟩, rfl⟩
          exact (order.perm _).mem_iff.2 (mem_filter.2 ⟨hmem, hactive⟩)
        have hle := length_liveRunIds_le hsub
        refine .inr ⟨⟨rfl, rfl⟩, by omega, fun r hr => ?_⟩
        rcases hgiven r hr with hr | ⟨-, rfl⟩
        · exact mem_cons_of_mem _ hr
        · exact mem_cons_self
      · exact .inl fun r hr => (hgiven r hr).resolve_right fun h => hgroup h.1

theorem holdsSlot_markCompleted {r : String} :
    (markCompleted db groupKey routingKey runId).holdsSlot groupKey routingKey r ↔
      r ≠ runId ∧ db.holdsSlot groupKey routingKey r := by
  constructor
  · intro h
    refine ⟨?_, holdsSlot_of_update (fun _ h => by cases h) h⟩
    rintro rfl
    obtain ⟨row, hrow, hactive, hrun⟩ := holdsSlot_iff.1 h
    obtain ⟨row, hmem, rfl⟩ := mem_map.1 hrow
    rw [apply] at hactive hrun
    split at hactive
    · simp [ConcurrencyGroup.isIn, complete] at hactive
    · next hg =>
      rw [if_neg hg] at hrun
      exact hg (by simp [complete, hrun, hactive])
  · rintro ⟨hne, h⟩
    obtain ⟨row, hmem, hactive, rfl⟩ := holdsSlot_iff.1 h
    have hg : (complete fun row' =>
        row'.runId = runId && row'.isIn groupKey routingKey .active).guard row = false := by
      simp [complete, hne]
    refine holdsSlot_iff.2 ⟨_, mem_map.2 ⟨row, hmem, rfl⟩, ?_⟩
    rw [apply_of_not_guard hg]
    exact ⟨hactive, rfl⟩

/-- Who waits does not change as a slot is given up. -/
theorem oldestQueued_markCompleted :
    oldestQueued order (markCompleted db groupKey routingKey runId) groupKey routingKey =
      oldestQueued order db groupKey routingKey := by
  have hrows : ∀ rows : List ConcurrencyGroup,
      (rows.map (complete fun row =>
        row.runId = runId && row.isIn groupKey routingKey .active).apply).filter
          (·.isIn groupKey routingKey .queued) =
        rows.filter (·.isIn groupKey routingKey .queued) := by
    intro rows
    induction rows with
    | nil => rfl
    | cons row rows ih =>
      rw [map_cons, filter_cons, filter_cons, ih]
      rw [apply]
      split
      · next hg =>
        -- The row was active, and is completed now.
        simp only [complete, ConcurrencyGroup.isIn, and_eq_true, decide_eq_true_eq] at hg
        simp [complete, ConcurrencyGroup.isIn, hg.2]
      · rfl
  rw [oldestQueued, oldestQueued, markCompleted, update, Table.execute]
  simp only [hrows]

/-- The promotion of the next run as another one gives up its slot. -/
theorem liveRunIds_onJobComplete {max : ℕ} (hroom : RoomFor order db groupKey routingKey max
      ((db.liveRunIds groupKey routingKey).filter (· ≠ runId)))
    (h : onJobComplete order db groupKey routingKey runId = some (job, db')) :
    db'.liveRunIds g rk ⊆ db.liveRunIds g rk ∨
      (g = groupKey ∧ rk = routingKey) ∧ ∃ r others, db'.liveRunIds g rk ⊆ r :: others ∧
        others.length < max := by
  have hothers : ∀ r, r ∈ (markCompleted db groupKey routingKey runId).liveRunIds groupKey routingKey ↔
      r ∈ (db.liveRunIds groupKey routingKey).filter (· ≠ runId) := by
    intro r
    rw [mem_filter, mem_liveRunIds, mem_liveRunIds, holdsSlot_markCompleted, decide_eq_true_eq]
    constructor
    · rintro ⟨⟨hne, hslot⟩, hlive⟩
      exact ⟨⟨hslot, hlive⟩, hne⟩
    · rintro ⟨⟨hslot, hlive⟩, hne⟩
      exact ⟨⟨hne, hslot⟩, hlive⟩
  have hroom' : RoomFor order (markCompleted db groupKey routingKey runId) groupKey routingKey max
      ((markCompleted db groupKey routingKey runId).liveRunIds groupKey routingKey) := by
    intro row hrow
    rw [oldestQueued_markCompleted] at hrow
    refine (hroom row hrow).imp_right (Or.imp (hothers _).2 fun hlt => ?_)
    exact (length_liveRunIds_le fun r hr => (hothers r).1 hr).trans_lt hlt
  rcases liveRunIds_promoted g rk hroom' h with hsub | ⟨hgroup, hlt, r, hsub⟩
  · exact .inl fun r hr => liveRunIds_complete _ (hsub hr)
  · exact .inr ⟨hgroup, r, _, hsub, hlt⟩

end ConcurrencyQueueManager

/-! ## Runs of the system -/

namespace ConcurrencyState

open ConcurrencyDb ConcurrencyQueueManager

/-- Promotions happen where there is room: in `dequeueNext` among the runs in the group, in
`onJobComplete` among those other than the one that gives up its slot. -/
def PromotesWithin (order : OrderBy ConcurrencyGroup.createdAt) (max : String → String → ℕ)
    (s : ConcurrencyState) : ConcurrencyAction → Prop
  | .next k _ => ∀ groupKey routingKey i, s.calls[k]? = some (.dequeueNext groupKey routingKey i) →
    i < MAX_ITERATIONS →
      RoomFor order s.db groupKey routingKey (max groupKey routingKey)
        (s.db.liveRunIds groupKey routingKey)
  | .onJobComplete groupKey routingKey runId =>
    RoomFor order s.db groupKey routingKey (max groupKey routingKey)
      ((s.db.liveRunIds groupKey routingKey).filter (· ≠ runId))
  | _ => True

variable {order : OrderBy ConcurrencyGroup.createdAt} {max : String → String → ℕ}
  {s t : ConcurrencyState} {a : ConcurrencyAction}

/-- What becomes of the runs in a group: none is added, or one to less than `max`. -/
def Admits (max : String → String → ℕ) (db db' : ConcurrencyDb) (g rk : String) : Prop :=
  db'.liveRunIds g rk ⊆ db.liveRunIds g rk ∨
    ∃ r others, db'.liveRunIds g rk ⊆ r :: others ∧ others.length < max g rk

theorem admits_nextOf {connected : Bool} {call : DispatchCall}
    (hok : ∀ groupKey routingKey i, call = .dequeueNext groupKey routingKey i →
      i < MAX_ITERATIONS → RoomFor order s.db groupKey routingKey (max groupKey routingKey)
        (s.db.liveRunIds groupKey routingKey)) (g rk : String) :
    Admits max s.db (s.nextOf order connected call).1 g rk := by
  cases call with
  | dequeueNext groupKey routingKey i =>
    have hpromoted : ∀ job db', i < MAX_ITERATIONS →
        dequeueNext order s.db groupKey routingKey = some (job, db') →
        Admits max s.db db' g rk := by
      intro job db' hi h
      refine (liveRunIds_promoted g rk (hok _ _ _ rfl hi) h).imp_right ?_
      rintro ⟨⟨rfl, rfl⟩, hlt, r, hsub⟩
      exact ⟨r, _, hsub, hlt⟩
    rw [nextOf]
    split
    · next hi =>
      split
      · exact .inl fun _ hr => hr
      · next h => exact hpromoted _ _ hi h
      · next h => exact hpromoted _ _ hi h
    · exact .inl fun _ hr => hr
  | markCompleted => exact .inl (liveRunIds_complete _)

theorem admits_step (hok : s.PromotesWithin order max a) (h : s.step order max a = some t)
    (g rk : String) : Admits max s.db t.db g rk := by
  cases a with
  | acquireSlot =>
    cases h
    refine liveRunIds_acquireSlot.imp_right ?_
    rintro ⟨⟨rfl, rfl⟩, hlt, hsub⟩
    exact ⟨_, _, hsub, hlt⟩
  | getActiveRuns | releaseSlot =>
    cases h
    exact .inl (liveRunIds_complete _)
  | enqueue =>
    cases h
    refine .inl (liveRunIds_subset (fun r hr => ?_) fun _ h => h)
    refine (holdsSlot_of_insert hr).resolve_right fun hnew => ?_
    simp [ConcurrencyGroup.isIn] at hnew
  | onJobComplete groupKey routingKey runId =>
    simp only [step] at h
    split at h <;> cases h
    · exact .inl fun _ hr => hr
    · next hdb =>
      refine (liveRunIds_onJobComplete hok hdb).imp_right ?_
      rintro ⟨⟨rfl, rfl⟩, hothers⟩
      exact hothers
  | cancelQueued =>
    cases h
    exact .inl (liveRunIds_subset (fun _ h => holdsSlot_of_update (fun _ h => by cases h) h)
      fun _ h => h)
  | tryDispatchNextQueued =>
    simp only [step, Option.ite_none_right_eq_some, Option.some.injEq] at h
    obtain ⟨-, rfl⟩ := h
    exact .inl fun _ hr => hr
  | next k connected =>
    simp only [step] at h
    split at h
    · next call hcall =>
      cases h
      refine admits_nextOf (fun groupKey routingKey i heq => ?_) g rk
      exact hok groupKey routingKey i (hcall.trans (congrArg _ heq))
    · cases h
  | setRunStatus runId status =>
    simp only [step, Option.ite_none_left_eq_some, Option.some.injEq] at h
    obtain ⟨hlive, rfl⟩ := h
    refine .inl (liveRunIds_subset (fun _ h => h) fun r hr => ?_)
    -- The run was not over, so that it is another one.
    have hne : r ≠ runId := by
      rintro rfl
      exact hlive hr
    simp only [finished, any_eq_true, mem_cons, mem_filter] at hr ⊢
    obtain ⟨er, her, hover⟩ := hr
    refine ⟨er, .inr ⟨her, ?_⟩, hover⟩
    simp only [decide_eq_true_eq] at hover
    simpa [hover.1] using hne

end ConcurrencyState

open ConcurrencyState in
/-- At most `max` runs hold a slot of a group and are not over, as long as promotions happen
where there is room. -/
theorem cap_of_promotesWithin {order : OrderBy ConcurrencyGroup.createdAt}
    {max : String → String → ℕ} {s : ConcurrencyState}
    (h : (concurrencySystem order max).Reachable (PromotesWithin order max) s)
    (groupKey routingKey : String) :
    (s.db.liveRunIds groupKey routingKey).length ≤ max groupKey routingKey := by
  refine h.invariant
    (P := fun s => (s.db.liveRunIds groupKey routingKey).length ≤ max groupKey routingKey)
    (fun s hs => ?_) fun s a t hcap hok hstep => ?_
  · simp [liveRunIds, hs.1, empty]
  · rcases admits_step hok hstep groupKey routingKey with hsub | ⟨r, others, hsub, hlt⟩
    · exact (length_liveRunIds_le hsub).trans hcap
    · exact (length_liveRunIds_le hsub).trans hlt

/-! ## Running the system -/

/-- No groups and no runs. -/
def emptyGroups : ConcurrencyState where
  db := { groups := empty ConcurrencyGroup.id, executionRuns := [] }

/-- A test for steps whose promotions have room. -/
def onJobCompleteTest (max : String → String → ℕ) (s : ConcurrencyState) : ConcurrencyAction → Bool
  | .acquireSlot .. | .enqueue .. => true
  | .onJobComplete groupKey routingKey runId =>
    ((s.db.liveRunIds groupKey routingKey).filter (· ≠ runId)).length < max groupKey routingKey
  | _ => false

/-- A slot goes from one run to the next. -/
theorem cap_of_promotesWithin_handed_on : ∃ s : ConcurrencyState,
    s.db.holdsSlot "deploy" "repo" "second" ∧
      (s.db.liveRunIds "deploy" "repo").length ≤ 1 := by
  have htest : ∀ s a, onJobCompleteTest (fun _ _ => 1) s a →
      ConcurrencyState.PromotesWithin (.insertionSort _) (fun _ _ => 1) s a := by
    intro s a ha
    cases a with
    | onJobComplete => exact fun _ _ => .inr (.inr (of_decide_eq_true ha))
    | next => cases ha
    | _ => trivial
  obtain ⟨s, hpath, hs⟩ := (concurrencySystem (.insertionSort _) fun _ _ => 1).exists_path emptyGroups
      (fun s => s.db.holdsSlot "deploy" "repo" "second") htest
      [.acquireSlot "deploy" "repo" "first" "job" "1" 0,
        .acquireSlot "deploy" "repo" "second" "job" "2" 1,
          .enqueue ⟨"deploy", "repo", "second", "job"⟩ "3" 1,
        .onJobComplete "deploy" "repo" "first"]
      (by decide)
  exact ⟨s, hs, cap_of_promotesWithin ⟨_, ⟨rfl, rfl, rfl⟩, hpath⟩ "deploy" "repo"⟩

/-- A run in which two runs hold the only slot: a third run takes the slot that the first one
gave up, before it is handed on to the second one. -/
theorem exists_cap_exceeded : ¬∀ (order : OrderBy ConcurrencyGroup.createdAt)
    (max : String → String → ℕ) (s : ConcurrencyState),
    (concurrencySystem order max).Reachable System.anyStep s → ∀ groupKey routingKey,
      (s.db.liveRunIds groupKey routingKey).length ≤ max groupKey routingKey := by
  intro h
  obtain ⟨s, hpath, hs⟩ : ∃ s, (concurrencySystem (.insertionSort _) fun _ _ => 1).Path
      System.anyStep emptyGroups s ∧ ((s.db.liveRunIds "deploy" "repo").length = 2 : Bool) :=
    System.exists_path_of_run System.anyStep_of_true
      [.acquireSlot "deploy" "repo" "first" "job" "1" 0,
        .acquireSlot "deploy" "repo" "second" "job" "2" 1,
          .enqueue ⟨"deploy", "repo", "second", "job"⟩ "3" 1,
        .setRunStatus "first" .success, .releaseSlot "deploy" "repo" "first",
        .acquireSlot "deploy" "repo" "third" "job" "4" 2,
        .tryDispatchNextQueued "deploy" "repo", .next 0 true]
      (by decide)
  have hle := h _ _ s ⟨_, ⟨rfl, rfl, rfl⟩, hpath⟩ "deploy" "repo"
  rw [of_decide_eq_true hs] at hle
  omega

end Kici
