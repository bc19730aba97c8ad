import Kici.Events.CatchUpOrder
import Kici.Foundation.Lists

/-!
# Catching up passes no event

A page has all open events that come between the reference event and its end
(`pageSound_unprocessedAfter`), and `catchUp` tries to lease one after the other. An untouched event
can be leased, so once that was tried the event is touched (`touched_of_lease`) and the cursor may
pass it. A node that was notified of an event moves its cursor to that event, whatever else it
missed, and so only the condition on such a step keeps the order (`ordered_step`).
-/

namespace Kici.Events

open List Option Bool RouterState Table

variable {config : RouterConfig} {s t : RouterState} {proc : RouterProc} {page : Option CatchUpPage}
  {eventId : ℕ} {otherwise : RouterPoint} {row : EventRow} {k : ℕ}

/-! ## Leases -/

/-- The answer to a lease is the row as it is then. -/
theorem stored_of_returning {event : EventRow} {others : List EventRow}
    (hreturning : s.events.returning (s.leaseOf config proc eventId) = event :: others)
    (hevents : t.events = s.events.execute (s.leaseOf config proc eventId)) :
    event.id = eventId ∧ event ∈ t.events := by
  obtain ⟨row, hrow, hguard, rfl⟩ := mem_returning.1 (hreturning ▸ mem_cons_self : event ∈ _)
  refine ⟨(guard_leaseOf.1 hguard).1, ?_⟩
  rw [hevents, ← Update.apply_of_guard hguard]
  exact mem_map_of_mem hrow

/-- An event whose lease was tried is not as it was inserted, whether or not the lease was taken. -/
theorem touched_of_lease (hrow : row ∈ (s.lease config k proc eventId page otherwise).events)
    (hid : row.id = eventId) : row.untouched = false := by
  rw [lease] at hrow
  split at hrow
  next hreturning =>
    -- The lease would be taken of an untouched event.
    rw [← not_eq_true]
    intro huntouched
    have hopen := isOpen_of_untouched huntouched
    rw [EventRow.untouched, and_eq_true, and_eq_true] at huntouched
    have hleasable : row.leasable config.leaseDurationMs s.now := by
      rw [EventRow.leasable, hopen, huntouched.1.2]
      rfl
    have hmem : (s.leaseOf config proc eventId).set row ∈ s.events.returning
      (s.leaseOf config proc eventId) :=
      mem_returning.2 ⟨row, hrow, guard_leaseOf.2 ⟨hid, hleasable⟩, rfl⟩
    rw [hreturning] at hmem
    cases hmem
  next event others hreturning =>
    have hrow' : row ∈ s.events.execute (s.leaseOf config proc eventId) := hrow
    have hevent := stored_of_returning
      (t := { s with events := s.events.execute (s.leaseOf config proc eventId) })
      hreturning rfl
    rw [eq_of_id hrow' hevent.2 (hid.trans hevent.1.symm)]
    obtain ⟨old, -, -, rfl⟩ := mem_returning.1 (hreturning ▸ mem_cons_self : event ∈ _)
    exact touches_leaseOf.untouched old

theorem follows_lease : Follows s (s.lease config k proc eventId page otherwise) := by
  rw [lease]
  split
  · exact .same rfl rfl
  · exact .of_execute touches_leaseOf rfl fun _ _ hmissed => .inl hmissed

theorem owed_of_lease {k n : ℕ} (h : (s.lease config k proc eventId page otherwise).Owed n row) :
    s.Owed n row := by
  cases hreturning : s.events.returning (s.leaseOf config proc eventId) with
  | nil =>
    rw [lease, hreturning] at h
    exact ⟨h.mem, h.untouched, h.missed⟩
  | cons event others =>
    rw [lease, hreturning] at h
    exact ⟨touches_leaseOf.mem_of_untouched h.mem h.untouched, h.untouched, h.missed⟩

/-- A process tries a lease. -/
theorem ordered_lease (h : Ordered s)
    (hotherwise : otherwise.Sound (s.lease config k proc eventId page otherwise) proc.node)
    (htaken : ∀ event ∈ (s.lease config k proc eventId page otherwise).events, event.id = eventId →
      (s.lease config k proc eventId page otherwise).EventSound proc.node event page) :
    Ordered (s.lease config k proc eventId page otherwise) := by
  have hfollows : Follows s (s.lease config k proc eventId page otherwise) := follows_lease
  cases hreturning : s.events.returning (s.leaseOf config proc eventId) with
  | nil =>
    have hlease : s.lease config k proc eventId page otherwise = s.goOn k proc otherwise := by
      rw [lease, hreturning]
    rw [hlease] at hotherwise hfollows ⊢
    exact h.goOn hfollows rfl rfl rfl hotherwise
  | cons event others =>
    have hlease : s.lease config k proc eventId page otherwise = { s with
        events := s.events.execute (s.leaseOf config proc eventId)
        entries := Function.update s.entries eventId (s.entries eventId + 1) }.goOn k proc
          (.dispatching event page) := by
      rw [lease, hreturning]
    rw [hlease] at htaken hfollows ⊢
    obtain ⟨hid, hmem⟩ := stored_of_returning (t := { s with
      events := s.events.execute (s.leaseOf config proc eventId) }) hreturning rfl
    exact h.goOn hfollows rfl rfl rfl (htaken event hmem hid)

/-- Once the first event of a page is touched, it is passed. -/
theorem eventSound_of_head {n : ℕ} {event : EventRow} (event' : EventRow) {rest : List EventRow}
    {full : Bool}
    (h : s.PageSound n ⟨event :: rest, full⟩) (hfollows : Follows s t)
    (howed : ∀ row, t.Owed n row → s.Owed n row)
    (htouched : ∀ row ∈ t.events, row.id = event.id → row.untouched = false)
    (hkey : event'.key = event.key) : t.EventSound n event' (some ⟨rest, full⟩) := by
  obtain ⟨hfirst, hsorted⟩ := pairwise_cons.1 h.sorted
  have hrest : ∀ row, t.Owed n row →
      (∃ e ∈ rest, e.key = row.key) ∨ ∀ e ∈ event :: rest, e.key < row.key := by
    intro row hrow
    rcases h.complete row (howed row hrow) with ⟨e, he, hrowKey⟩ | hafter
    · rcases mem_cons.1 he with rfl | he
      · have huntouched := hrow.untouched
        rw [htouched row hrow.mem (id_of_key hrowKey).symm] at huntouched
        cases huntouched
      · exact .inl ⟨e, he, hrowKey⟩
    · exact .inr hafter
  refine ⟨?_, fun _ row hrow => ?_, fun p hp => ?_⟩
  · obtain ⟨row, hrow, hrowKey⟩ := hfollows.stored event (h.stored event mem_cons_self)
    exact ⟨row, hrow, hrowKey.trans hkey.symm⟩
  · rw [hkey]
    rcases hrest row hrow with ⟨e, he, hrowKey⟩ | hafter
    · rw [← hrowKey]
      exact hfirst e he
    · exact hafter event mem_cons_self
  · cases hp
    refine ⟨hsorted, fun e he => hfollows.stored e (h.stored e (mem_cons_of_mem _ he)),
      fun row hrow => ?_⟩
    exact (hrest row hrow).imp_right fun hafter e he => hafter e (mem_cons_of_mem _ he)

/-! ## Pages -/

/-- A page has what comes between the reference event and its end. -/
theorem pageSound_unprocessedAfter {n limit : ℕ} {ref : Option EventKey} {full : Bool}
    (hpassed : ∀ key ∈ ref, s.Passed n key) :
    s.PageSound n ⟨unprocessedAfter s.events ref limit, full⟩ := by
  have hpage : unprocessedAfter s.events ref limit = ((s.events.rows.filter fun row =>
      row.isOpen && row.isAfter ref).insertionSort fun r s => r.key ≤ s.key).take limit := rfl
  generalize hfiltered : (s.events.rows.filter fun row => row.isOpen && row.isAfter ref) =
    filtered at hpage
  generalize hsorted : (filtered.insertionSort fun r s => r.key ≤ s.key) = sorted at hpage
  have hperm : sorted.Perm filtered := hsorted ▸ perm_insertionSort _ filtered
  -- No two rows have one key, so the order is strict.
  have hstrict : sorted.Pairwise fun event event' => event.key < event'.key := by
    have : Std.Total fun r s : EventRow => r.key ≤ s.key := ⟨fun _ _ => le_total _ _⟩
    have : IsTrans EventRow fun r s => r.key ≤ s.key := ⟨fun _ _ _ => le_trans⟩
    have hle : sorted.Pairwise fun event event' => event.key ≤ event'.key :=
      hsorted ▸ pairwise_insertionSort _ filtered
    have hids : (s.events.rows.map EventRow.id).Nodup := s.events.nodup
    have hsub : filtered.Sublist s.events.rows := hfiltered ▸ filter_sublist
    have hne : sorted.Pairwise fun event event' => event.id ≠ event'.id :=
      pairwise_map.1 ((hperm.map EventRow.id).nodup_iff.2 (hids.sublist (hsub.map _)))
    exact (hle.and hne).imp fun h => lt_of_le_of_ne h.1 fun heq => h.2 (id_of_key heq)
  have hmem : ∀ {row : EventRow}, row ∈ sorted ↔ row ∈ s.events ∧ row.isOpen ∧ row.isAfter ref := by
    intro row
    rw [hperm.mem_iff, ← hfiltered, mem_filter, and_eq_true, Table.mem_def]
  rw [hpage]
  refine ⟨hstrict.sublist (take_sublist limit sorted), fun event hevent => ?_, fun row hrow => ?_⟩
  · exact ⟨event, (hmem.1 (mem_of_mem_take hevent)).1, rfl⟩
  · have hafter : row.isAfter ref := by
      cases ref with
      | none => rfl
      | some key => exact decide_eq_true (hpassed key rfl row hrow)
    have hrowMem : row ∈ sorted := hmem.2 ⟨hrow.mem, isOpen_of_untouched hrow.untouched, hafter⟩
    rw [← take_append_drop limit sorted] at hrowMem hstrict
    rcases mem_append.1 hrowMem with htaken | hleft
    · exact .inl ⟨row, htaken, rfl⟩
    · exact .inr fun event hevent => (pairwise_append.1 hstrict).2.2 event hevent row hleft

theorem ordered_procStep (h : Ordered s) (hproc : proc ∈ s.procs)
    (hcareful : s.carefulStep config proc) (hstep : s.procStep config k proc = some t) : Ordered t := by
  have hsound := h.points proc hproc
  rw [procStep] at hstep
  split at hstep
  next eventId hpoint =>
    cases hstep
    refine ordered_lease h trivial fun event hevent _ =>
      ⟨⟨event, hevent, rfl⟩, fun hsome => ?_, fun p hp => ?_⟩
    · cases hsome
    · cases hp
  next hpoint =>
    obtain ⟨node, hnode, rfl⟩ := map_eq_some_iff.1 hstep
    refine h.goOn (.same rfl rfl) rfl rfl rfl fun key hkey => ?_
    cases hlast : node.lastProcessedEventId with
    | none =>
      rw [hlast] at hkey
      cases hkey
    | some id =>
      rw [hlast] at hkey
      obtain ⟨row, hrow, hid, hpassed⟩ := h.cursors proc.node id (by rw [hnode, bind_some, hlast])
      rw [reference_eq_some.2 ⟨row, hrow, hid, rfl⟩] at hkey
      cases hkey
      exact passed_mono hpassed fun _ howed => .inl ⟨howed.mem, howed.untouched, howed.missed⟩
  next ref hpoint =>
    cases hstep
    rw [hpoint] at hsound
    have hfollows : ∀ point, Follows s (s.goOn k proc point) := fun _ => .same rfl rfl
    refine h.goOn (hfollows _) rfl rfl rfl ?_
    split
    · trivial
    · refine pageSound_mono (hfollows _).stored (pageSound_unprocessedAfter hsound) fun _ howed =>
        .inl ?_
      exact ⟨howed.mem, howed.untouched, howed.missed⟩
  next event rest full hpoint =>
    cases hstep
    rw [hpoint] at hsound
    have hfollows : Follows s
        (s.lease config k proc event.id (some ⟨rest, full⟩) (.moving event (some ⟨rest, full⟩))) :=
          follows_lease
    have hhead := fun (event' : EventRow) => eventSound_of_head event' hsound
      hfollows (fun _ howed => owed_of_lease howed) fun row hrow hid => touched_of_lease hrow hid
    refine ordered_lease h (hhead event rfl) fun leased hleased hid => hhead leased ?_
    -- The row of the page has the key of the row that is leased.
    obtain ⟨row, hrow, hkey⟩ := hfollows.stored event (hsound.stored event mem_cons_self)
    rw [← hkey, eq_of_id hleased hrow (hid.trans (id_of_key hkey).symm)]
  next full hpoint =>
    cases hstep
    refine h.goOn (.same rfl rfl) rfl rfl rfl ?_
    split <;> trivial
  next event page hpoint =>
    have ht := some.inj hstep
    rw [hpoint] at hsound
    have hnodes : t.nodes = s.nodes.modify proc.node fun node =>
        { node with lastProcessedEventId := some event.id } := by rw [← ht]; rfl
    have hevents : t.events = s.events := by rw [← ht]; rfl
    have hmissed : ∀ n id, t.missedBy n id = s.missedBy n id := missedBy_modify hnodes fun _ => rfl
    have hfollows : Follows s t := .of_eq hevents fun n id h => .inl (hmissed n id ▸ h)
    have hpassed : s.Passed proc.node event.key := by
      cases page with
      | some page => exact hsound.passed rfl
      | none =>
        -- This is where the condition on what a node was notified of is needed.
        rw [carefulStep, hpoint, and_eq_true, List.all_eq_true] at hcareful
        intro row hrow
        have hall := hcareful.2 row hrow.mem
        rw [hrow.untouched, hrow.missed] at hall
        simpa using hall
    have howed : ∀ n row, t.Owed n row → s.Owed n row := fun n row howed =>
      ⟨hevents ▸ howed.mem, howed.untouched, hmissed n row.id ▸ howed.missed⟩
    refine h.follow hfollows (fun n id hid => ?_) (fun proc' hproc' => ?_)
      fun scan hscan task htask => .inl ?_
    · refine (cursor_modify hnodes hid).imp_right ?_
      rintro ⟨rfl, node, hlast, -⟩
      obtain ⟨row, hrow, hkey⟩ := hfollows.stored event hsound.stored
      refine ⟨row, hrow, (id_of_key hkey).trans (some.inj hlast), fun row' hrow' => ?_⟩
      rw [hkey]
      exact hpassed row' (howed _ row' hrow')
    · rw [← ht] at hproc'
      refine (mem_or_eq_of_mem_set hproc').imp_right ?_
      rintro rfl
      cases page with
      | none => trivial
      | some page =>
        exact pageSound_mono hfollows.stored (hsound.page page rfl) fun row hrow =>
          .inl (howed _ row hrow)
    · rw [← ht] at hscan
      exact ⟨scan, hscan, htask⟩
  · cases hstep
  · cases hstep

theorem ordered_record (h : Ordered s) {ended : DispatchEnd} (hproc : proc ∈ s.procs)
    (hrecord : s.record config k proc ended = some t) : Ordered t := by
  have hsound := h.points proc hproc
  rw [record] at hrecord
  split at hrecord
  next event page hpoint =>
    have ht := some.inj hrecord
    rw [hpoint] at hsound
    have hevents : t.events = s.events.execute
        (outcome event.id event.attempts config.maxDispatchAttempts s.now ended) := by rw [← ht]; rfl
    have hfollows : Follows s t := by
      rw [← ht]
      exact .of_execute touches_outcome rfl fun _ _ hmissed => .inl hmissed
    have howed : ∀ row, t.Owed proc.node row → s.Owed proc.node row := by
      intro row howed
      have hmissed : t.missedBy proc.node row.id = s.missedBy proc.node row.id := by rw [← ht]; rfl
      exact ⟨touches_outcome.mem_of_untouched (hevents ▸ howed.mem) howed.untouched, howed.untouched,
        hmissed ▸ howed.missed⟩
    have hmoving : (RouterPoint.moving event page).Sound t proc.node :=
      eventSound_mono hfollows.stored hsound fun row hrow => .inl (howed row hrow)
    exact h.goOn hfollows (by rw [← ht]; rfl) (by rw [← ht]; rfl) (by rw [← ht]; rfl) hmoving
  · cases hrecord

/-- A scan goes on, or another one begins. -/
theorem Ordered.scan (h : Ordered s) (hfollows : Follows s t) (hnodes : t.nodes = s.nodes)
    (hprocs : t.procs = s.procs)
    (hscans : ∀ scan ∈ t.scans, ∀ task ∈ scan, (∃ scan' ∈ s.scans, task ∈ scan') ∨
      t.Touched task.eventId) :
    Ordered t := by
  refine h.follow hfollows (fun n id hid => .inl ?_) (fun proc hproc => .inl ?_) hscans
  · rw [← hnodes]
    exact hid
  · rw [← hprocs]
    exact hproc

theorem ordered_publish (h : Ordered s) (htouched : s.Touched eventId) :
    Ordered (s.publish eventId) := by
  have hfollows : Follows s (s.publish eventId) := by
    refine .of_eq rfl fun n id hmissed => ?_
    rcases missedBy_publish hmissed with hold | ⟨rfl, -⟩
    · exact .inl hold
    · exact .inr htouched
  refine h.follow hfollows (fun n id hid => .inl ?_) (fun proc hproc => sound_of_mem_publish hproc)
    fun scan hscan task htask => .inl ⟨scan, hscan, htask⟩
  rw [← cursor_publish n eventId]
  exact hid

theorem ordered_scanStep (h : Ordered s) {j : ℕ} {tasks : List ScanTask} (htasks : tasks ∈ s.scans)
    (hstep : s.scanStep j tasks = some t) : Ordered t := by
  have hrest : ∀ {task : ScanTask} {rest : List ScanTask}, tasks = task :: rest →
    ∀ scan ∈ s.scans.set j rest,
      ∀ task ∈ scan, ∃ scan' ∈ s.scans, task ∈ scan' := by
    rintro task rest rfl scan hscan task' htask'
    rcases mem_or_eq_of_mem_set hscan with hold | rfl
    · exact ⟨scan, hold, htask'⟩
    · exact ⟨_, htasks, mem_cons_of_mem _ htask'⟩
  rw [scanStep.eq_def] at hstep
  split at hstep
  next eventId rest =>
    cases hstep
    refine h.scan (.of_execute touches_releaseExpiredLease rfl fun _ _ hmissed => .inl hmissed) rfl rfl
      fun scan hscan task htask => .inl (hrest rfl scan hscan task htask)
  next eventId rest =>
    cases hstep
    have hgone : Ordered { s with scans := s.scans.set j rest } :=
      h.scan (.same rfl rfl) rfl rfl
        fun scan hscan task htask => .inl (hrest rfl scan hscan task htask)
    refine ordered_publish hgone ?_
    exact h.scans _ htasks (.publish eventId) mem_cons_self
  · cases hstep

/-- What a scan finds is touched. -/
theorem touched_of_foundExpired (hrow : row ∈ s.foundExpired config) : s.Touched row.id := by
  have hmem := (perm_insertionSort _ _).mem_iff.1 (mem_of_mem_take hrow)
  obtain ⟨hrow', hexpired⟩ := mem_filter.1 hmem
  refine ⟨row, hrow', rfl, untouched_of_claimed ?_⟩
  rw [and_eq_true, EventRow.leaseExpired, Option.any_eq_true] at hexpired
  obtain ⟨-, claimedAt, hclaimedAt, -⟩ := hexpired
  rw [hclaimedAt]
  rfl

theorem touched_of_foundDue (hrow : row ∈ s.foundDue) : s.Touched row.id := by
  have hmem := (perm_insertionSort _ _).mem_iff.1 (mem_of_mem_take hrow)
  obtain ⟨hrow', hdue⟩ := mem_filter.1 hmem
  refine ⟨row, hrow', rfl, untouched_of_retry ?_⟩
  rw [and_eq_true, Option.any_eq_true] at hdue
  obtain ⟨-, nextRetryAt, hnextRetryAt, -⟩ := hdue
  rw [hnextRetryAt]
  rfl

theorem ordered_resetFromDlq (h : Ordered s) (hstep : s.step config (.resetFromDlq eventId) = some t) :
    Ordered t := by
  rw [step, ite_none_left_eq_some] at hstep
  obtain ⟨hreturning, hstep⟩ := hstep
  cases hstep
  refine h.scan (.of_execute touches_resetFromDlq rfl fun _ _ hmissed => .inl hmissed) rfl rfl
    fun scan hscan task htask => ?_
  rcases mem_append.1 hscan with hold | hnew
  · exact .inl ⟨scan, hold, htask⟩
  · right
    rw [mem_singleton.1 hnew] at htask
    rw [mem_singleton.1 htask]
    -- The reset changed a row, and that row is the one of the event.
    obtain ⟨row, hrow⟩ := exists_mem_of_ne_nil _ (fun hnil => hreturning (List.isEmpty_iff.2 hnil))
    obtain ⟨old, hold, hguard, rfl⟩ := mem_returning.1 hrow
    refine ⟨(resetFromDlq eventId s.now).set old, ?_, ?_, touches_resetFromDlq.untouched old⟩
    · rw [← Update.apply_of_guard hguard]
      exact mem_map_of_mem hold
    · rw [resetFromDlq, and_eq_true, decide_eq_true_eq] at hguard
      exact hguard.1

/-- An event is inserted and published. -/
theorem ordered_commit (h : Ordered s) (hcareful : s.careful config (.commit eventId))
    (hstep : s.step config (.commit eventId) = some t) : Ordered t := by
  rw [step] at hstep
  obtain ⟨new, hnew, hstep⟩ := bind_eq_some_iff.1 hstep
  rw [ite_none_right_eq_some] at hstep
  obtain ⟨hfree, hstep⟩ := hstep
  have ht := some.inj hstep
  rw [careful, hnew, all_some, carefulCommit, List.all_eq_true] at hcareful
  have hid : new.id = eventId := by simpa using find?_some hnew
  have hnotMem : ∀ row ∈ s.events, row.id ≠ eventId := by
    intro row hrow heq
    rw [← heq, lookup_of_mem hrow] at hfree
    cases hfree
  have hevents : t.events = s.events.insertNew new := by rw [← ht]; rfl
  have hfollows : Follows s t := by
    refine ⟨?_, ?_, fun n row howed => ?_, fun n id hmissed => ?_⟩
    · rintro event ⟨row, hrow, hkey⟩
      exact ⟨row, hevents ▸ mem_insertNew_of_mem hrow new, hkey⟩
    · rintro id ⟨row, hrow, hrowId⟩
      exact ⟨row, hevents ▸ mem_insertNew_of_mem hrow new, hrowId⟩
    · have hmissed := howed.missed
      rw [← ht] at hmissed
      rcases mem_insertNew (hevents ▸ howed.mem) with hold | rfl
      · rcases missedBy_publish hmissed with hmissed | ⟨heq, -⟩
        · exact .inl ⟨hold, howed.untouched, hmissed⟩
        · exact absurd heq (hnotMem row hold)
      · right
        rcases missedBy_publish hmissed with hold | ⟨-, hdeaf⟩
        · obtain ⟨row', hrow', hrowId⟩ := h.missed n row.id hold
          exact absurd (hrowId.trans hid) (hnotMem row' hrow')
        · -- A node that is not notified has not read past the event.
          have hn : n ∈ range s.nodes.length := by
            obtain ⟨node, hnode, -⟩ := (Option.any_eq_true _ _).1 howed.missed
            rw [← ht, publish, getElem?_map] at hnode
            obtain ⟨node', hnode', -⟩ := map_eq_some_iff.1 hnode
            exact mem_range.2 (List.getElem?_eq_some_iff.1 hnode').1
          have hafter := hcareful n hn
          have hdeaf' : s.nodes[n]?.any (·.listening) = false := hdeaf
          rw [hdeaf', Bool.false_or, List.all_eq_true] at hafter
          exact fun key hkey => of_decide_eq_true (hafter key hkey)
    · rw [← ht] at hmissed
      refine (missedBy_publish hmissed).imp_right ?_
      rintro ⟨rfl, -⟩
      rw [hevents]
      obtain ⟨row, hrow, hkey⟩ := s.events.exists_mem_insertNew new
      exact ⟨row, hrow, hkey.trans hid⟩
  refine h.follow hfollows (fun n id hid' => .inl ?_) (fun proc hproc => ?_)
    fun scan hscan task htask => .inl ?_
  · rw [← ht, cursor_publish] at hid'
    exact hid'
  · rw [← ht] at hproc
    exact sound_of_mem_publish hproc
  · rw [← ht] at hscan
    exact ⟨scan, hscan, htask⟩

/-- A node connects, disconnects or starts again, and its cursor stays or is lost. -/
theorem Ordered.connection (h : Ordered s) {n : ℕ} {f : RouterNode → RouterNode}
    (hevents : t.events = s.events)
    (hnodes : t.nodes = s.nodes.modify n f) (hf : ∀ node, (f node).missed = node.missed)
    (hcursor : ∀ node id, (f node).lastProcessedEventId = some id → node.lastProcessedEventId = some id)
    (hprocs : ∀ proc ∈ t.procs, proc ∈ s.procs ∨ proc.point.Sound t proc.node)
    (hscans : t.scans = s.scans) : Ordered t := by
  have hmissed := missedBy_modify hnodes hf
  refine h.follow (.of_eq hevents fun n id h => .inl (hmissed n id ▸ h)) (fun n id hid => .inl ?_) hprocs
    fun scan hscan task htask => .inl ⟨scan, hscans ▸ hscan, htask⟩
  rcases cursor_modify hnodes hid with hold | ⟨-, node, hlast, hnode⟩
  · exact hold
  · rw [hnode]
    exact hcursor node id hlast

/-- What a step does to the order, if it passes no event. -/
theorem ordered_step (h : Ordered s) {a : RouterAction} (hcareful : s.careful config a)
    (hstep : s.step config a = some t) : Ordered t := by
  cases a with
  | elapse | rollBack =>
    cases hstep
    exact h.scan (.same rfl rfl) rfl rfl fun scan hscan task htask => .inl ⟨scan, hscan, htask⟩
  | emit eventId =>
    obtain ⟨-, ⟨⟩⟩ := ite_none_right_eq_some.1 hstep
    exact h.scan (.same rfl rfl) rfl rfl fun scan hscan task htask => .inl ⟨scan, hscan, htask⟩
  | commit eventId => exact ordered_commit h hcareful hstep
  | connect n =>
    obtain ⟨-, ⟨⟩⟩ := ite_none_right_eq_some.1 hstep
    refine h.connection rfl rfl (fun _ => rfl) (fun _ _ hid => hid) (fun proc hproc => ?_) rfl
    rcases mem_append.1 hproc with hold | hnew
    · exact .inl hold
    · rw [mem_singleton.1 hnew]
      exact .inr trivial
  | disconnect n =>
    cases hstep
    refine h.connection rfl rfl (fun _ => rfl) (fun _ _ hid => hid) (fun proc hproc => .inl ?_) rfl
    exact hproc
  | crash n =>
    cases hstep
    refine h.connection rfl rfl (fun _ => rfl) (nofun) (fun proc hproc => ?_) rfl
    obtain ⟨proc', hproc', rfl⟩ := mem_map.1 hproc
    rw [RouterProc.crash]
    split
    · exact .inr trivial
    · exact .inl hproc'
  | step k =>
    obtain ⟨proc, hproc, hstep⟩ := bind_eq_some_iff.1 hstep
    rw [careful, hproc, all_some] at hcareful
    exact ordered_procStep h (mem_of_getElem? hproc) hcareful hstep
  | loseLease k =>
    obtain ⟨proc, hproc, hstep⟩ := bind_eq_some_iff.1 hstep
    obtain ⟨eventId, -, rfl⟩ := map_eq_some_iff.1 hstep
    exact h.goOn (.of_execute touches_leaseOf rfl fun _ _ hmissed => .inl hmissed) rfl rfl rfl trivial
  | record k ended =>
    obtain ⟨proc, hproc, hstep⟩ := bind_eq_some_iff.1 hstep
    exact ordered_record h (mem_of_getElem? hproc) hstep
  | throw k =>
    obtain ⟨proc, hproc, rfl⟩ := map_eq_some_iff.1 hstep
    exact h.goOn (.same rfl rfl) rfl rfl rfl trivial
  | findExpiredLeases =>
    cases hstep
    refine h.scan (.same rfl rfl) rfl rfl fun scan hscan task htask => ?_
    rcases mem_append.1 hscan with hold | hnew
    · exact .inl ⟨scan, hold, htask⟩
    · rw [mem_singleton.1 hnew] at htask
      obtain ⟨row, hrow, htask⟩ := mem_flatMap.1 htask
      have hid : task.eventId = row.id := by
        rcases mem_pair.1 htask with rfl | rfl <;> rfl
      rw [hid]
      exact .inr (touched_of_foundExpired hrow)
  | findEventsDueForRetry =>
    cases hstep
    refine h.scan (.same rfl rfl) rfl rfl fun scan hscan task htask => ?_
    rcases mem_append.1 hscan with hold | hnew
    · exact .inl ⟨scan, hold, htask⟩
    · rw [mem_singleton.1 hnew] at htask
      obtain ⟨row, hrow, rfl⟩ := mem_map.1 htask
      exact .inr (touched_of_foundDue hrow)
  | scanStep j =>
    obtain ⟨tasks, htasks, hstep⟩ := bind_eq_some_iff.1 hstep
    exact ordered_scanStep h (mem_of_getElem? htasks) hstep
  | stopScan j =>
    cases hstep
    refine h.scan (.same rfl rfl) rfl rfl fun scan hscan task htask => .inl ?_
    rcases mem_or_eq_of_mem_set hscan with hold | rfl
    · exact ⟨scan, hold, htask⟩
    · cases htask
  | resetFromDlq eventId => exact ordered_resetFromDlq h hstep

end Kici.Events
