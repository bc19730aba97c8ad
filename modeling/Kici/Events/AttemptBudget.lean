import Kici.Events.Notifications

/-!
# The attempts of an event

An attempt is counted when a lease is taken, and the count is looked at when a dispatch throws. What
is kept (`Budget`) is that an event that is open and not leased has attempts left. A lease of an
event that is not leased counts one of them; a dispatch that throws leaves the event open only if
there are others. If the lease of the last attempt expires, nothing looks at the count
(`budget_step`).
-/

namespace Kici.Events

open Option Bool RouterState Table Function List EventRow

variable {config : RouterConfig} {s t : RouterState} {proc : RouterProc} {eventId : ℕ}

/-- What is counted of an event was counted when a lease was taken, and an event that can be leased
has attempts left. -/
structure Budget (config : RouterConfig) (s : RouterState) : Prop where
  entries : ∀ row ∈ s.events, s.entries row.id ≤ row.attempts
  unused : ∀ id, (∀ row ∈ s.events, row.id ≠ id) → s.entries id = 0
  attempts : ∀ row ∈ s.events, row.attempts ≤ config.maxDispatchAttempts
  unleased : ∀ row ∈ s.events, row.isOpen = true → row.claimedAt = none →
    row.attempts < config.maxDispatchAttempts
  pending : ∀ row ∈ s.pending, row.attempts = 0

namespace Budget

theorem of_eq (h : Budget config s) (hevents : t.events = s.events) (hentries : t.entries = s.entries)
    (hpending : ∀ row ∈ t.pending, row.attempts = 0) : Budget config t := by
  refine ⟨?_, ?_, ?_, ?_, hpending⟩
  · rw [hevents, hentries]
    exact h.entries
  · rw [hevents, hentries]
    exact h.unused
  · rw [hevents]
    exact h.attempts
  · rw [hevents]
    exact h.unleased

/-- An update keeps the budget if it does so for the rows that it changes. -/
theorem execute (h : Budget config s) (u : Update EventRow.id) (hevents : t.events = s.events.execute u)
    (hpending : t.pending = s.pending)
    (hunused : ∀ id, (∀ row ∈ s.events, row.id ≠ id) → t.entries id ≤ s.entries id)
    (hother : ∀ row ∈ s.events, u.guard row = false → t.entries row.id ≤ s.entries row.id)
    (hset : ∀ row ∈ s.events, u.guard row → t.entries row.id ≤ (u.set row).attempts ∧
      (u.set row).attempts ≤ config.maxDispatchAttempts ∧
      ((u.set row).isOpen → (u.set row).claimedAt = none →
        (u.set row).attempts < config.maxDispatchAttempts)) : Budget config t := by
  -- What holds of the rows that are changed, and of the others, holds of all.
  have hrows : ∀ row' ∈ t.events, t.entries row'.id ≤ row'.attempts ∧
      row'.attempts ≤ config.maxDispatchAttempts ∧ (row'.isOpen → row'.claimedAt = none →
        row'.attempts < config.maxDispatchAttempts) := by
    intro row' hrow'
    rw [hevents] at hrow'
    obtain ⟨row, hrow, rfl⟩ := mem_map.1 hrow'
    by_cases hguard : u.guard row
    · rw [Update.apply_of_guard hguard, u.key_set row]
      exact hset row hrow hguard
    · rw [Update.apply_of_not_guard (eq_false_iff.2 hguard)]
      exact ⟨(hother row hrow (eq_false_iff.2 hguard)).trans (h.entries row hrow), h.attempts row hrow,
        h.unleased row hrow⟩
  refine ⟨fun row hrow => (hrows row hrow).1, fun id hid => ?_, fun row hrow => (hrows row hrow).2.1,
    fun row hrow => (hrows row hrow).2.2, by rw [hpending]; exact h.pending⟩
  have hnew : ∀ row ∈ s.events, row.id ≠ id := by
    intro row hrow heq
    refine hid (u.apply row) ?_ ((Update.key_apply row).trans heq)
    rw [hevents]
    exact mem_map_of_mem hrow
  exact Nat.le_zero.1 (h.unused id hnew ▸ hunused id hnew)

end Budget

section

variable (h : Budget config s)
include h

/-- What a lease does to a row that it is taken of. -/
theorem attempts_lt_of_leasable {row : EventRow} (hrow : row ∈ s.events)
    (hleasable : row.leasable config.leaseDurationMs s.now)
    (hcareful : (row.spent config && row.leaseExpired config.leaseDurationMs s.now) = false) :
    row.attempts < config.maxDispatchAttempts := by
  rw [leasable, and_eq_true, or_eq_true] at hleasable
  obtain ⟨hopen, hfree | hexpired⟩ := hleasable
  · exact h.unleased row hrow hopen (isNone_iff_eq_none.1 hfree)
  · rw [hexpired, Bool.and_true, spent, hopen, Bool.true_and, decide_eq_false_iff_not] at hcareful
    exact Nat.lt_of_not_le hcareful

/-- A lease counts an attempt, of those that are left. -/
theorem budget_leaseOf (hcareful : ((s.events.lookup eventId).all fun row =>
      !(row.spent config && row.leaseExpired config.leaseDurationMs s.now)))
    (hevents : t.events = s.events.execute (s.leaseOf config proc eventId))
    (hpending : t.pending = s.pending) (hother : ∀ id, id ≠ eventId → t.entries id = s.entries id)
    (hentries : t.entries eventId ≤ s.entries eventId + 1)
    (htaken : t.entries eventId = s.entries eventId ∨
      ∃ row ∈ s.events, (s.leaseOf config proc eventId).guard row) : Budget config t := by
  refine h.execute _ hevents hpending (fun id hid => ?_) (fun row hrow hguard => ?_)
    fun row hrow hguard => ?_
  · by_cases heq : id = eventId
    · subst heq
      rcases htaken with hsame | ⟨row, hrow, hguard⟩
      · exact le_of_eq hsame
      · exact absurd (guard_leaseOf.1 hguard).1 (hid row hrow)
    · exact le_of_eq (hother id heq)
  · by_cases heq : row.id = eventId
    · rcases htaken with hsame | ⟨row', hrow', hguard'⟩
      · rw [heq, hsame]
      · rw [eq_of_id hrow hrow' (heq.trans (guard_leaseOf.1 hguard').1.symm), hguard'] at hguard
        cases hguard
    · exact le_of_eq (hother row.id heq)
  · obtain ⟨hid, hleasable⟩ := guard_leaseOf.1 hguard
    have hlookup : s.events.lookup eventId = some row := lookup_eq_some.2 ⟨hrow, hid⟩
    rw [hlookup, all_some, not_eq_eq_eq_not, Bool.not_true] at hcareful
    have hlt := attempts_lt_of_leasable h hrow hleasable hcareful
    have hcount := h.entries row hrow
    have hset : ((s.leaseOf config proc eventId).set row).attempts = row.attempts + 1 := rfl
    rw [hid] at hcount ⊢
    refine ⟨by omega, by omega, fun _ hnone => ?_⟩
    cases hnone

theorem budget_lease {k eventId : ℕ} {page : Option CatchUpPage} {otherwise : RouterPoint}
    (hcareful : ((s.events.lookup eventId).all fun row =>
      !(row.spent config && row.leaseExpired config.leaseDurationMs s.now))) :
    Budget config (s.lease config k proc eventId page otherwise) := by
  rw [lease]
  split
  · exact h.of_eq rfl rfl h.pending
  next event _ hreturning =>
    obtain ⟨row, hrow, hguard, -⟩ := mem_returning.1 (hreturning ▸ mem_cons_self : event ∈ _)
    refine budget_leaseOf h hcareful rfl rfl (fun id hne => ?_) ?_ (.inr ⟨row, hrow, hguard⟩)
    · exact update_of_ne hne _ _
    · exact le_of_eq (update_self ..)

theorem budget_procStep {k : ℕ}
    (hcareful : (proc.leasing.all fun eventId => (s.events.lookup eventId).all fun row =>
      !(row.spent config && row.leaseExpired config.leaseDurationMs s.now)))
    (hstep : s.procStep config k proc = some t) : Budget config t := by
  rw [RouterProc.leasing] at hcareful
  rw [procStep] at hstep
  split at hstep
  next eventId hpoint =>
    cases hstep
    rw [hpoint, all_some] at hcareful
    exact budget_lease h hcareful
  next hpoint =>
    obtain ⟨node, -, rfl⟩ := map_eq_some_iff.1 hstep
    exact h.of_eq rfl rfl h.pending
  next ref hpoint =>
    cases hstep
    exact h.of_eq rfl rfl h.pending
  next event rest full hpoint =>
    cases hstep
    rw [hpoint, all_some] at hcareful
    exact budget_lease h hcareful
  next full hpoint =>
    cases hstep
    exact h.of_eq rfl rfl h.pending
  next event page hpoint =>
    cases hstep
    exact h.of_eq rfl rfl h.pending
  · cases hstep
  · cases hstep

theorem budget_record {k : ℕ} {ended : DispatchEnd}
    (hcareful : s.carefulRecord config proc ended) (hrecord : s.record config k proc ended = some t) :
    Budget config t := by
  rw [record] at hrecord
  split at hrecord
  next event page hpoint =>
    cases hrecord
    refine h.execute (outcome event.id event.attempts config.maxDispatchAttempts s.now ended) rfl rfl
      (fun _ _ => le_refl _) (fun _ _ _ => le_refl _) fun row hrow hguard => ?_
    rw [(set_outcome row).2]
    refine ⟨h.entries row hrow, h.attempts row hrow, fun hopen _ => ?_⟩
    rw [guard_outcome, decide_eq_true_eq] at hguard
    cases ended with
    | returned result => cases hopen
    | threw errorMessage nextRetryAt =>
      rw [outcome] at hopen
      split at hopen
      · cases hopen
      next hleft =>
        -- The event stays open. If nobody took the lease over, what was compared is the count of
        -- the row.
        have hlookup : s.events.lookup event.id = some row := lookup_eq_some.2 ⟨hrow, hguard⟩
        simp only [carefulRecord, hpoint, hlookup, hleft, decide_false, Bool.false_or, all_some,
          or_eq_true, decide_eq_true_eq, spent, not_eq_eq_eq_not, Bool.not_true] at hcareful
        rcases hcareful with hsame | hspent
        · omega
        · have hrowOpen : row.isOpen := hopen
          rw [hrowOpen, Bool.true_and, decide_eq_false_iff_not] at hspent
          omega
  · cases hrecord

theorem budget_scanStep {j : ℕ} {tasks : List ScanTask}
    (hcareful : s.carefulScan config tasks) (hstep : s.scanStep j tasks = some t) : Budget config t := by
  rw [scanStep.eq_def] at hstep
  split at hstep
  next eventId rest =>
    cases hstep
    refine h.execute (releaseExpiredLease eventId s.now) rfl rfl (fun _ _ => le_refl _)
      (fun _ _ _ => le_refl _)
      fun row hrow hguard => ⟨h.entries row hrow, h.attempts row hrow, fun hopen _ => ?_⟩
    rw [releaseExpiredLease, and_eq_true, decide_eq_true_eq] at hguard
    have hlookup : s.events.lookup eventId = some row := lookup_eq_some.2 ⟨hrow, hguard.1⟩
    rw [carefulScan, hlookup, all_some, spent, hguard.2, Bool.true_and,
      not_eq_eq_eq_not, Bool.not_true, decide_eq_false_iff_not] at hcareful
    exact Nat.lt_of_not_le hcareful
  next eventId rest =>
    cases hstep
    exact h.of_eq rfl rfl h.pending
  · cases hstep

theorem budget_resetFromDlq (hpos : 0 < config.maxDispatchAttempts)
    (hstep : s.step config (.resetFromDlq eventId) = some t) : Budget config t := by
  rw [step, ite_none_left_eq_some] at hstep
  obtain ⟨-, hstep⟩ := hstep
  cases hstep
  have hentries : ∀ id, update s.entries eventId 0 id ≤ s.entries id := by
    intro id
    by_cases hid : id = eventId
    · rw [hid, update_self]
      exact Nat.zero_le _
    · rw [update_of_ne hid]
  refine h.execute (resetFromDlq eventId s.now) rfl rfl (fun id _ => hentries id)
    (fun row _ _ => hentries row.id) fun row hrow hguard => ⟨?_, Nat.zero_le _, fun _ _ => hpos⟩
  rw [resetFromDlq, and_eq_true, decide_eq_true_eq] at hguard
  change update s.entries eventId 0 row.id ≤ _
  rw [hguard.1, update_self]
  exact Nat.zero_le _

theorem budget_commit (hpos : 0 < config.maxDispatchAttempts)
    (hstep : s.step config (.commit eventId) = some t) : Budget config t := by
  rw [step] at hstep
  obtain ⟨new, hnew, hstep⟩ := bind_eq_some_iff.1 hstep
  rw [ite_none_right_eq_some] at hstep
  obtain ⟨hfree, hstep⟩ := hstep
  cases hstep
  have hid : new.id = eventId := by simpa using find?_some hnew
  have hzero : new.attempts = 0 := h.pending new (mem_of_find?_eq_some hnew)
  have hunused : s.entries new.id = 0 := by
    refine h.unused new.id fun row hrow heq => ?_
    rw [hid] at heq
    rw [← heq, lookup_of_mem hrow] at hfree
    cases hfree
  have hrows : ∀ row ∈ s.events.insertNew new, row ∈ s.events ∨ row = new := fun row hrow =>
    mem_insertNew hrow
  refine ⟨fun row hrow => ?_, fun id hid => ?_, fun row hrow => ?_, fun row hrow => ?_,
    fun row hrow => ?_⟩
  · rcases hrows row hrow with hold | rfl
    · exact h.entries row hold
    · exact le_of_eq_of_le hunused (Nat.zero_le _)
  · exact h.unused id fun row hrow => hid row (mem_insertNew_of_mem hrow new)
  · rcases hrows row hrow with hold | rfl
    · exact h.attempts row hold
    · omega
  · rcases hrows row hrow with hold | rfl
    · exact h.unleased row hold
    · omega
  · exact h.pending row (mem_of_mem_filter hrow)

/-- What a step does to the budget, if it does not try an event too often. -/
theorem budget_step (hpos : 0 < config.maxDispatchAttempts) {a : RouterAction}
    (hcareful : s.careful config a) (hstep : s.step config a = some t) : Budget config t := by
  cases a with
  | elapse | disconnect | crash | findExpiredLeases | findEventsDueForRetry | stopScan =>
    cases hstep
    exact h.of_eq rfl rfl h.pending
  | emit eventId =>
    obtain ⟨-, ⟨⟩⟩ := ite_none_right_eq_some.1 hstep
    refine h.of_eq rfl rfl fun row hrow => ?_
    rcases mem_append.1 hrow with hold | hnew
    · exact h.pending row hold
    · rw [mem_singleton.1 hnew]
  | commit eventId => exact budget_commit h hpos hstep
  | rollBack eventId =>
    cases hstep
    exact h.of_eq rfl rfl fun row hrow => h.pending row (mem_of_mem_filter hrow)
  | connect n =>
    obtain ⟨-, ⟨⟩⟩ := ite_none_right_eq_some.1 hstep
    exact h.of_eq rfl rfl h.pending
  | step k =>
    obtain ⟨proc, hproc, hstep⟩ := bind_eq_some_iff.1 hstep
    rw [careful, hproc, all_some, carefulStep, and_eq_true] at hcareful
    exact budget_procStep h hcareful.1 hstep
  | loseLease k =>
    obtain ⟨proc, hproc, hstep⟩ := bind_eq_some_iff.1 hstep
    rw [careful, hproc, all_some, carefulStep, and_eq_true] at hcareful
    obtain ⟨eventId, hleasing, rfl⟩ := map_eq_some_iff.1 hstep
    rw [hleasing, all_some] at hcareful
    exact budget_leaseOf h hcareful.1 rfl rfl (fun _ _ => rfl) (Nat.le_succ _) (.inl rfl)
  | record k ended =>
    obtain ⟨proc, hproc, hstep⟩ := bind_eq_some_iff.1 hstep
    rw [careful, hproc, all_some] at hcareful
    exact budget_record h hcareful hstep
  | throw k =>
    obtain ⟨proc, hproc, rfl⟩ := map_eq_some_iff.1 hstep
    exact h.of_eq rfl rfl h.pending
  | scanStep j =>
    obtain ⟨tasks, htasks, hstep⟩ := bind_eq_some_iff.1 hstep
    rw [careful, htasks, all_some] at hcareful
    exact budget_scanStep h hcareful hstep
  | resetFromDlq eventId => exact budget_resetFromDlq h hpos hstep

end

end Kici.Events
