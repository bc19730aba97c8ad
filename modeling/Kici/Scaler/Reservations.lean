import Kici.Scaler.LedgerHost

/-!
# Reservations and the cap

What an operation writes when it has read a ledger that is up to date
(`LedgerOp.Writes.covers`, `LedgerOp.Writes.withinCap`): the sums stay within the cap,
and the reservations of running processes stay in the ledger unless they are released
(`Covers`).
-/

namespace Kici

open List LedgerEvent

/-! ## Sums -/

section Sums

variable {α ρ : Type*} [AddZeroClass α] [LinearOrder α] [AddLeftMono α] [AddRightMono α]

/-- To add up more amounts, from more, makes no less. -/
theorem foldl_add_mono {f : ρ → α} (hf : ∀ r, 0 ≤ f r) {l l' : List ρ} (h : l.Sublist l') {a b : α}
    (hab : a ≤ b) : l.foldl (fun acc r => acc + f r) a ≤ l'.foldl (fun acc r => acc + f r) b := by
  induction h generalizing a b with
  | slnil => exact hab
  | cons r _ ih => exact ih (hab.trans (le_add_of_nonneg_right (hf r)))
  | cons_cons r _ ih => exact ih (add_le_add_left hab (f r))

end Sums

variable {α : Type*} [AddZeroClass α] [LinearOrder α]

/-- The amounts are added up on their own. -/
theorem sumReservations_eq (rows : List (ReservationRow α)) : sumReservations rows =
    ⟨rows.foldl (fun acc r => acc + r.cpus.1) 0, rows.foldl (fun acc r => acc + r.memBytes.1) 0⟩ := by
  have hfold : ∀ acc : Usage α, rows.foldl (fun acc r =>
      (⟨acc.cpus + r.cpus, acc.memBytes + r.memBytes⟩ : Usage α)) acc =
        ⟨rows.foldl (fun acc r => acc + r.cpus.1) acc.cpus,
          rows.foldl (fun acc r => acc + r.memBytes.1) acc.memBytes⟩ := by
    induction rows with
    | nil => exact fun _ => rfl
    | cons r rows ih => exact fun acc => ih _
  exact hfold _

theorem sumReservations_append (rows : List (ReservationRow α)) (row : ReservationRow α) :
    sumReservations (rows ++ [row]) = ⟨(sumReservations rows).cpus + row.cpus,
      (sumReservations rows).memBytes + row.memBytes⟩ := by
  rw [sumReservations, foldl_append]
  rfl

/-- The sums of the reservations are at most the cap. -/
structure LedgerFile.WithinCap (ledger : LedgerFile α) : Prop where
  cpus : ∀ max ∈ ledger.cap.maxCpu, (sumReservations ledger.reservations).cpus ≤ max.1
  memBytes : ∀ max ∈ ledger.cap.maxMemoryBytes,
    (sumReservations ledger.reservations).memBytes ≤ max.1

variable {ledger : LedgerFile α} {m : MachineLedger α} {alive : ℕ → Bool} {now : ℕ}
  {op : LedgerOp α} {written : LedgerFile α} {result : LedgerResult α}

/-- What is read is the content of the file, or an empty ledger. -/
theorem MachineLedger.readLedger_cases {stringify : CapText α} {poolName : String}
    {file : Option (LedgerFile α)} (h : m.readLedger stringify poolName file = .ok ledger) :
    (file = none ∧ ledger.reservations = []) ∨ file = some ledger := by
  rw [readLedger] at h
  split at h
  · cases h
  · split at h
    · obtain rfl := Except.ok.inj h
      exact .inl ⟨rfl, rfl⟩
    · split at h
      · cases h
      · split at h
        · cases h
        · obtain rfl := Except.ok.inj h
          exact .inr rfl

theorem LedgerFile.withinCap_of_nil (h : ledger.reservations = []) : ledger.WithinCap := by
  refine ⟨fun max _ => ?_, fun max _ => ?_⟩
  · rw [h]
    exact max.2
  · rw [h]
    exact max.2

/-- Where rows were removed, those that were kept are written. -/
theorem LedgerFile.eq_of_writtenIfFewer {kept : List (ReservationRow α)}
    (h : ledger.writtenIfFewer kept = some written) :
    written = { ledger with reservations := kept } :=
  (Option.some.inj (Option.ite_none_right_eq_some.1 h).2).symm

/-- The row is one of a process. -/
def MachineLedger.Owns (m : MachineLedger α) (row : ReservationRow α) : Prop :=
  row.instanceId = m.instanceId ∧ row.pid = m.pid ∧ row.bootId = m.bootId

/-- What an operation writes when it has read a ledger: the reservations that are left,
and a new one if it is within the cap. -/
inductive LedgerOp.Writes (m : MachineLedger α) (alive : ℕ → Bool) (ledger : LedgerFile α) :
    LedgerOp α → LedgerFile α → LedgerResult α → Prop
  | granted (agentId : String) (cpus memBytes : Amount α) (row : ReservationRow α) (hrow : m.Owns row)
      (hcap : { ledger with
        reservations := ledger.reservations.filter (m.keepsRow alive) ++ [row] }.WithinCap) :
      Writes m alive ledger (.tryReserve agentId cpus memBytes)
        { ledger with reservations := ledger.reservations.filter (m.keepsRow alive) ++ [row] }
        (.granted row)
  | refused (agentId : String) (cpus memBytes : Amount α) :
      Writes m alive ledger (.tryReserve agentId cpus memBytes)
        { ledger with reservations := ledger.reservations.filter (m.keepsRow alive) } .refused
  | release (agentId : String) : Writes m alive ledger (.release agentId)
      { ledger with reservations :=
          ledger.reservations.filter fun r => r.instanceId ≠ m.instanceId ∨ r.agentId ≠ agentId } .void
  | reapStale : Writes m alive ledger .reapStale
      { ledger with reservations := ledger.reservations.filter (m.keepsRow alive) } .void
  | releaseAllForInstance : Writes m alive ledger .releaseAllForInstance
      { ledger with reservations := ledger.reservations.filter fun r => r.instanceId ≠ m.instanceId }
      .void

theorem LedgerOp.perform_writes (h : op.perform m alive now ledger = (some written, result)) :
    op.Writes m alive ledger written result := by
  cases op with
  | tryReserve agentId cpus memBytes =>
    obtain ⟨hwritten, hresult⟩ := Prod.mk.inj h
    have htry : m.tryReserve alive now agentId cpus memBytes ledger = (written, result) :=
      Prod.ext (Option.some.inj hwritten) hresult
    rw [MachineLedger.tryReserve] at htry
    split at htry
    · obtain ⟨rfl, rfl⟩ := Prod.mk.inj htry
      exact .refused agentId cpus memBytes
    next hcpus =>
      split at htry
      · obtain ⟨rfl, rfl⟩ := Prod.mk.inj htry
        exact .refused agentId cpus memBytes
      next hmem =>
        obtain ⟨rfl, rfl⟩ := Prod.mk.inj htry
        refine .granted agentId cpus memBytes _ ⟨rfl, rfl, rfl⟩
          ⟨fun max hmax => ?_, fun max hmax => ?_⟩
        · rw [sumReservations_append]
          exact not_lt.1 fun hlt => hcpus ⟨max, hmax, hlt⟩
        · rw [sumReservations_append]
          exact not_lt.1 fun hlt => hmem ⟨max, hmax, hlt⟩
  | release agentId =>
    obtain ⟨hwritten, rfl⟩ := Prod.mk.inj h
    obtain rfl := LedgerFile.eq_of_writtenIfFewer hwritten
    exact .release agentId
  | reapStale =>
    obtain ⟨hwritten, rfl⟩ := Prod.mk.inj h
    obtain rfl := LedgerFile.eq_of_writtenIfFewer hwritten
    exact .reapStale
  | getUsage => cases h
  | releaseAllForInstance =>
    obtain ⟨hwritten, rfl⟩ := Prod.mk.inj h
    obtain rfl := LedgerFile.eq_of_writtenIfFewer hwritten
    exact .releaseAllForInstance

section WithinCap

variable [AddLeftMono α] [AddRightMono α]

/-- To remove reservations keeps within the cap. -/
theorem LedgerFile.WithinCap.sublist (h : ledger.WithinCap) {rows : List (ReservationRow α)}
    (hrows : rows.Sublist ledger.reservations) : { ledger with reservations := rows }.WithinCap := by
  constructor
  · intro max hmax
    refine le_trans ?_ (h.cpus max hmax)
    rw [sumReservations_eq, sumReservations_eq]
    exact foldl_add_mono (fun r => r.cpus.2) hrows le_rfl
  · intro max hmax
    refine le_trans ?_ (h.memBytes max hmax)
    rw [sumReservations_eq, sumReservations_eq]
    exact foldl_add_mono (fun r => r.memBytes.2) hrows le_rfl

/-- An operation on a ledger within the cap writes one within the cap. -/
theorem LedgerOp.Writes.withinCap (h : op.Writes m alive ledger written result)
    (hledger : ledger.WithinCap) : written.WithinCap := by
  cases h with
  | granted _ _ _ _ _ hcap => exact hcap
  | refused | release | reapStale | releaseAllForInstance => exact hledger.sublist filter_sublist

end WithinCap

/-! ## Reservations that are held -/

variable {κ ι : Type*} {running running' : κ → Prop} {held : List (κ × ReservationRow α)}
  {rows : List (ReservationRow α)} {keep : ReservationRow α → Bool}

/-- The reservations that are held after an event, each with its process. -/
def LedgerEvent.apply (held : List (κ × ReservationRow α)) :
    LedgerEvent κ α → List (κ × ReservationRow α)
  | .reserved process row => held ++ [(process, row)]
  | .released instanceId agentId =>
    held.filter fun e => e.2.instanceId ≠ instanceId ∨ e.2.agentId ≠ agentId
  | .releasedAll instanceId => held.filter fun e => e.2.instanceId ≠ instanceId

/-- The reservations that were written and not released. -/
def outstanding (log : List (LedgerEvent κ α)) : List (κ × ReservationRow α) :=
  log.foldl apply []

theorem outstanding_append (log events : List (LedgerEvent κ α)) :
    outstanding (log ++ events) = events.foldl apply (outstanding log) :=
  foldl_append ..

/-- The ledger has those of the reservations that are of running processes. -/
def Covers (running : κ → Prop) (held : List (κ × ReservationRow α))
    (rows : List (ReservationRow α)) : Prop :=
  ∀ l : List (κ × ReservationRow α), l.Sublist held → (∀ e ∈ l, running e.1) →
    (l.map Prod.snd).Sublist rows

theorem Covers.mono (h : Covers running held rows)
    (hrunning : ∀ e ∈ held, running' e.1 → running e.1) : Covers running' held rows :=
  fun l hl hrun => h l hl fun e he => hrunning e (hl.subset he) (hrun e he)

theorem Covers.append (h : Covers running held rows) (process : κ) (row : ReservationRow α) :
    Covers running (held ++ [(process, row)]) (rows ++ [row]) := by
  intro l hl hrun
  obtain ⟨l₁, l₂, rfl, h₁, h₂⟩ := sublist_append_iff.1 hl
  rw [map_append]
  refine (h l₁ h₁ fun e he => hrun e (mem_append_left _ he)).append ?_
  exact h₂.map Prod.snd

/-- To keep the rows of running processes keeps those that are held. -/
theorem Covers.reap (h : Covers running held rows)
    (hkeep : ∀ e ∈ held, running e.1 → keep e.2) : Covers running held (rows.filter keep) := by
  intro l hl hrun
  have hall : (l.map Prod.snd).filter keep = l.map Prod.snd := by
    refine List.filter_eq_self.2 fun row hrow => ?_
    obtain ⟨e, he, rfl⟩ := List.mem_map.1 hrow
    exact hkeep e (hl.subset he) (hrun e he)
  rw [← hall]
  exact (h l hl hrun).filter keep

/-- To release rows releases them of those that are held. -/
theorem Covers.filter (h : Covers running held rows) (keep : ReservationRow α → Bool) :
    Covers running (held.filter fun e => keep e.2) (rows.filter keep) :=
  Covers.reap (fun l hl hrun => h l (hl.trans filter_sublist) hrun) fun _ he _ =>
    (mem_filter.1 he).2

open LedgerState

variable {host : LedgerHost ι κ α} {c : ι}

/-- The reservations that are held after a call are those before, and its own. -/
theorem mem_foldl_eventOf {e : κ × ReservationRow α}
    (h : e ∈ (eventOf host c result).foldl apply held) :
    e ∈ held ∨ ∃ row, result = .granted row ∧ e = (host.processOf c, row) := by
  cases result with
  | granted row =>
    rcases mem_append.1 h with h | h
    · exact .inl h
    · exact .inr ⟨row, rfl, mem_singleton.1 h⟩
  | _ =>
    rw [eventOf] at h
    · split at h
      · exact .inl ((mem_filter.1 h).1)
      · exact .inl ((mem_filter.1 h).1)
      · exact .inl h
    · simp

/-- An operation on a ledger that is up to date writes one that is up to date. -/
theorem LedgerOp.Writes.covers
    (h : (host.op c).Writes (ledgerOf host c) alive ledger written result)
    (hledger : Covers running held ledger.reservations)
    (hkeeps : ∀ e ∈ held, running e.1 → (ledgerOf host c).keepsRow alive e.2) :
    Covers running ((eventOf host c result).foldl apply held) written.reservations := by
  generalize hop : host.op c = op at h
  cases h with
  | granted _ _ _ row => exact (hledger.reap hkeeps).append _ row
  | refused | reapStale =>
    simp only [eventOf, hop]
    exact hledger.reap hkeeps
  | release agentId =>
    simp only [eventOf, hop]
    exact hledger.filter fun r => r.instanceId ≠ (ledgerOf host c).instanceId ∨ r.agentId ≠ agentId
  | releaseAllForInstance =>
    simp only [eventOf, hop]
    exact hledger.filter fun r => r.instanceId ≠ (ledgerOf host c).instanceId

end Kici
