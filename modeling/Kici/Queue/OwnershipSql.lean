import Kici.Foundation.Sql
import Kici.Queue.DispatchQueue

/-!
# Which rows a coordinator may take over

A coordinator sweeps the rows that it may recover (`recoverableByOwnerSql`) and guards its writes by
a weaker condition (`writableByOwnerSql`). Both are conditions of SQL on a column that may be
`NULL`, and on the heartbeats of the coordinators; where they hold, `recoverableByOwner` and
`writableByOwner` do (`recoverableByOwner_iff`, `writableByOwner_iff`).

The rows that are recovered are the coordinator's own and those of owners without a heartbeat
(`recoverable_writable`); that a coordinator recovers its own rows is meant
(`exists_own_row_recovered`).
-/

namespace Kici

open SqlBool

/-- A coordinator has a heartbeat within the grace time. -/
def Db.HasHeartbeat (db : Db) (graceMs : ℕ) (instanceId : String) : Prop :=
  ∃ ci ∈ db.clusterInstances, ci.1 = instanceId ∧ db.now < ci.2 + graceMs

namespace OwnershipPredicateOptions

variable (opts : OwnershipPredicateOptions) (db : Db) (ownerColumn : Option String)

/-- The coordinator that the column names is not alive. -/
def ownerNotLiveSql : SqlBool :=
  not (existsRow db.clusterInstances fun ci =>
    and (eq (some ci.1) ownerColumn) (ofBool (db.now < ci.2 + opts.graceMs)))

/-- The owner is this instance, a connected peer, or has a live heartbeat. -/
def ownerIsLiveSql : SqlBool :=
  let liveIds := opts.instanceId.toList ++ opts.livePeerIds
  let heartbeatLive := not (opts.ownerNotLiveSql db ownerColumn)
  -- `IN ()` is not SQL: without ids, only the heartbeats are asked.
  if liveIds = [] then heartbeatLive else or (isIn ownerColumn liveIds) heartbeatLive

/-- The owner is this instance. -/
def isSelfSql : SqlBool :=
  match opts.instanceId with
  | none => no
  | some instanceId => eq ownerColumn (some instanceId)

/-- Strict selection: the rows that a sweep may recover. -/
def recoverableByOwnerSql : SqlBool :=
  and (not (isNull ownerColumn)) (or (opts.isSelfSql ownerColumn) (opts.ownerNotLiveSql db ownerColumn))

/-- Permissive guard: the rows that may be written. -/
def writableByOwnerSql : SqlBool :=
  or (or (isNull ownerColumn) (not (opts.ownerIsLiveSql db ownerColumn))) (opts.isSelfSql ownerColumn)

variable {opts db ownerColumn} {r : DispatchRow} {owner : String}

@[simp]
theorem holds_isSelfSql : (opts.isSelfSql ownerColumn).Holds ↔ ∃ id, ownerColumn = some id ∧
    opts.instanceId = some id := by
  rw [isSelfSql]
  split
  · next h => simp [h, Holds]
  · next id h => simp [h]

/-- An unknown owner has no heartbeat. -/
@[simp]
theorem holds_ownerNotLiveSql : (opts.ownerNotLiveSql db ownerColumn).Holds ↔
    ∀ id, ownerColumn = some id → ¬ db.HasHeartbeat opts.graceMs id := by
  simp only [ownerNotLiveSql, Db.HasHeartbeat, holds_not, fails_existsRow, holds_and,
    holds_eq, holds_ofBool, decide_eq_true_eq]
  constructor
  · rintro h id hid ⟨ci, hci, rfl, hlive⟩
    exact h ci hci ⟨⟨_, rfl, hid⟩, hlive⟩
  · rintro h ci hci ⟨⟨id, heq, hid⟩, hlive⟩
    exact h id hid ⟨ci, hci, Option.some.inj heq, hlive⟩

theorem fails_ownerIsLiveSql : (opts.ownerIsLiveSql db (some owner)).Fails ↔
    owner ∉ opts.instanceId.toList ++ opts.livePeerIds ∧ ¬ db.HasHeartbeat opts.graceMs owner := by
  rw [ownerIsLiveSql]
  split
  · next h => simp [h]
  · simp

/-- The rows that a sweep recovers have a known owner: this instance, or one without a heartbeat. -/
theorem holds_recoverableByOwnerSql : (opts.recoverableByOwnerSql db ownerColumn).Holds ↔
    ∃ owner, ownerColumn = some owner ∧
    (opts.instanceId = some owner ∨ ¬ db.HasHeartbeat opts.graceMs owner) := by
  simp only [recoverableByOwnerSql, holds_and, holds_not, fails_isNull, holds_or, holds_isSelfSql,
    holds_ownerNotLiveSql]
  constructor
  · rintro ⟨⟨owner, rfl⟩, ⟨id, hid, hself⟩ | hdead⟩
    · exact ⟨owner, rfl, .inl (hself.trans hid.symm)⟩
    · exact ⟨owner, rfl, .inr (hdead owner rfl)⟩
  · rintro ⟨owner, rfl, hself | hdead⟩
    · exact ⟨⟨owner, rfl⟩, .inl ⟨owner, rfl, hself⟩⟩
    · exact ⟨⟨owner, rfl⟩, .inr fun id hid => Option.some.inj hid ▸ hdead⟩

/-- The rows that may be written: of an unknown owner, of this instance, or of one that is neither
connected nor has a heartbeat. -/
theorem holds_writableByOwnerSql : (opts.writableByOwnerSql db ownerColumn).Holds ↔
    ∀ owner, ownerColumn = some owner →
      opts.instanceId = some owner ∨ owner ∉ opts.livePeerIds ∧
      ¬ db.HasHeartbeat opts.graceMs owner := by
  rcases ownerColumn with - | owner
  · simp [writableByOwnerSql]
  · simp only [writableByOwnerSql, holds_or, holds_isNull, holds_not, fails_ownerIsLiveSql,
      holds_isSelfSql]
    constructor
    · rintro ((hnull | ⟨hid, hdead⟩) | ⟨id, hid, hself⟩) other hother
      · cases hnull
      · cases hother
        exact .inr ⟨fun hpeer => hid (List.mem_append_right _ hpeer), hdead⟩
      · exact .inl (hself.trans (hid.symm.trans hother))
    · intro h
      rcases h owner rfl with hself | ⟨hpeer, hdead⟩
      · exact .inr ⟨owner, rfl, hself⟩
      · by_cases hself : opts.instanceId = some owner
        · exact .inr ⟨owner, rfl, hself⟩
        · refine .inl (.inr ⟨fun hid => ?_, hdead⟩)
          rcases List.mem_append.1 hid with hid | hid
          · exact hself (Option.mem_toList.1 hid)
          · exact hpeer hid

/-! ## The conditions as they are decided -/

theorem ownerNotLive_eq_true {graceMs : ℕ} : db.ownerNotLive graceMs ownerColumn ↔
    ∀ id, ownerColumn = some id → ¬ db.HasHeartbeat graceMs id := by
  simp only [Db.ownerNotLive, Db.HasHeartbeat, Bool.not_eq_true', List.any_eq_false, decide_eq_true_eq]
  constructor
  · rintro h id rfl ⟨ci, hci, rfl, hlive⟩
    exact h ci hci ⟨rfl, hlive⟩
  · rintro h ci hci ⟨hid, hlive⟩
    exact h ci.1 hid.symm ⟨ci, hci, rfl, hlive⟩

/-- `recoverableByOwner` says which rows the condition selects. -/
theorem recoverableByOwner_iff :
    opts.recoverableByOwner db r ↔ (opts.recoverableByOwnerSql db r.ownerInstanceId).Holds := by
  rw [holds_recoverableByOwnerSql]
  rcases howner : r.ownerInstanceId with - | owner
  · simp [recoverableByOwner, howner]
  · have hself : opts.instanceId.isSome ∧ some owner = opts.instanceId ↔ opts.instanceId = some owner :=
      ⟨fun h => h.2.symm, fun h => ⟨by rw [h]; rfl, h.symm⟩⟩
    rw [recoverableByOwner, decide_eq_true_eq, howner, hself, ownerNotLive_eq_true]
    simp

/-- `writableByOwner` says which rows the condition selects. -/
theorem writableByOwner_iff :
    opts.writableByOwner db r ↔ (opts.writableByOwnerSql db r.ownerInstanceId).Holds := by
  rcases howner : r.ownerInstanceId with - | owner
  · simp [writableByOwner, writableByOwnerSql, howner]
  · have hself : opts.instanceId.isSome ∧ some owner = opts.instanceId ↔ opts.instanceId = some owner :=
      ⟨fun h => h.2.symm, fun h => ⟨by rw [h]; rfl, h.symm⟩⟩
    have hlive : opts.ownerIsLive db r = false ↔
        owner ∉ opts.instanceId.toList ++ opts.livePeerIds ∧ ¬ db.HasHeartbeat opts.graceMs owner := by
      rw [ownerIsLive, howner, decide_eq_false_iff_not, not_or, Bool.not_eq_false, ownerNotLive_eq_true]
      simp
    simp only [writableByOwner, writableByOwnerSql, howner, hself, hlive, holds_or,
      holds_isNull, holds_not,
      fails_ownerIsLiveSql, holds_isSelfSql, decide_eq_true_eq, reduceCtorEq, false_or]
    simp

/-! ## Recovery -/

/-- A sweep recovers rows of this instance and of instances without a heartbeat only, and may write
them, unless their owner is connected as a peer; its own rows it always recovers. -/
theorem recoverable_writable (opts : OwnershipPredicateOptions) (db : Db) (ownerColumn : Option String) :
    ((opts.recoverableByOwnerSql db ownerColumn).Holds →
      ∃ owner, ownerColumn = some owner ∧
        (opts.instanceId = some owner ∨ ¬ db.HasHeartbeat opts.graceMs owner) ∧
        (opts.instanceId = some owner ∨ owner ∉ opts.livePeerIds →
          (opts.writableByOwnerSql db ownerColumn).Holds)) ∧
    ∀ owner, opts.instanceId = some owner →
      (opts.recoverableByOwnerSql db (some owner)).Holds ∧
      (opts.writableByOwnerSql db (some owner)).Holds := by
  constructor
  · intro h
    obtain ⟨owner, rfl, howner⟩ := holds_recoverableByOwnerSql.1 h
    refine ⟨owner, rfl, howner, fun hlisted => holds_writableByOwnerSql.2 fun other hother => ?_⟩
    cases hother
    rcases howner with hself | hdead
    · exact .inl hself
    · exact hlisted.imp_right fun hpeer => ⟨hpeer, hdead⟩
  · intro owner hself
    exact ⟨holds_recoverableByOwnerSql.2 ⟨owner, rfl, .inl hself⟩,
      holds_writableByOwnerSql.2 fun other hother => .inl (hother ▸ hself)⟩

/-- A coordinator that is alive recovers a row of its own. -/
theorem exists_own_row_recovered :
    ∃ (opts : OwnershipPredicateOptions) (db : Db) (owner : String), opts.instanceId = some owner ∧
      db.HasHeartbeat opts.graceMs owner ∧ (opts.recoverableByOwnerSql db (some owner)).Holds :=
  ⟨⟨some "a", 120000, []⟩, ⟨⟨[], List.nodup_nil⟩, [], [("a", 1000)], 2000⟩, "a", rfl,
    ⟨("a", 1000), List.mem_singleton_self _, rfl, by decide⟩, by decide⟩

end OwnershipPredicateOptions

end Kici
