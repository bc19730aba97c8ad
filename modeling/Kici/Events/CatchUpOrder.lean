import Kici.Events.Notifications

/-!
# The order in which a node catches up

What is owed to a node are the events that it missed and that nobody has touched
(`RouterState.Owed`). None of them is at its cursor or before it, and what `catchUp` has read is
such that it will not pass one of them (`Ordered`). That depends on the events only as far as they
are there and untouched, so it stays as it is whatever other nodes do (`Ordered.follow`): every
update of an event touches it (`Touches`), and what is published again is touched.
-/

namespace Kici.Events

open List Option EventRow RouterState Update

variable {config : RouterConfig} {s t : RouterState} {row : EventRow} {proc : RouterProc}
  {eventId : ℕ} {now : ℤ}

namespace RouterState

variable (s : RouterState)

/-- The node missed the event, and nobody has touched it. -/
structure Owed (n : ℕ) (row : EventRow) : Prop where
  mem : row ∈ s.events
  untouched : row.untouched = true
  missed : s.missedBy n row.id = true

/-- Nothing that is owed to the node is left at the key, or before it. -/
def Passed (n : ℕ) (key : EventKey) : Prop := ∀ row, s.Owed n row → key < row.key

/-- The event is in the database, where only its key is as it was. -/
def Stored (event : EventRow) : Prop := ∃ row ∈ s.events, row.key = event.key

def Touched (eventId : ℕ) : Prop := ∃ row ∈ s.events, row.id = eventId ∧ row.untouched = false

/-- What is owed to the node is on the page, or comes after it. -/
structure PageSound (n : ℕ) (page : CatchUpPage) : Prop where
  sorted : page.rest.Pairwise fun event event' => event.key < event'.key
  stored : ∀ event ∈ page.rest, s.Stored event
  complete : ∀ row, s.Owed n row →
    (∃ event ∈ page.rest, event.key = row.key) ∨ ∀ event ∈ page.rest, event.key < row.key

/-- The cursor may be moved to the event, and what is left of the page is sound. -/
structure EventSound (n : ℕ) (event : EventRow) (page : Option CatchUpPage) : Prop where
  stored : s.Stored event
  passed : page.isSome = true → s.Passed n event.key
  page : ∀ p ∈ page, s.PageSound n p

end RouterState

/-- What `catchUp` relies on where it has got to. -/
def RouterPoint.Sound (s : RouterState) (n : ℕ) : RouterPoint → Prop
  | .querying ref => ∀ key ∈ ref, s.Passed n key
  | .paging page => s.PageSound n page
  | .dispatching event page | .moving event page => s.EventSound n event page
  | .notified _ | .catchingUp | .ended => True

/-- No cursor has passed an event that is owed to its node, no `catchUp` is about to, and what is
published again is touched. What was missed was published, so it is there. -/
structure Ordered (s : RouterState) : Prop where
  cursors : ∀ n id, (s.nodes[n]?.bind (·.lastProcessedEventId)) = some id →
    ∃ row ∈ s.events, row.id = id ∧ s.Passed n row.key
  points : ∀ proc ∈ s.procs, proc.point.Sound s proc.node
  scans : ∀ scan ∈ s.scans, ∀ task ∈ scan, s.Touched task.eventId
  missed : ∀ n id, s.missedBy n id = true → ∃ row ∈ s.events, row.id = id

/-- What a step does to the order: events stay, and are not touched less; and what is newly owed to
a node comes after all that it has read. -/
structure Follows (s t : RouterState) : Prop where
  stored : ∀ event, s.Stored event → t.Stored event
  touched : ∀ id, s.Touched id → t.Touched id
  owed : ∀ n row, t.Owed n row → s.Owed n row ∨ ∀ key ∈ s.positions n, key < row.key
  missed : ∀ n id, t.missedBy n id = true → s.missedBy n id = true ∨ ∃ row ∈ t.events, row.id = id

theorem id_of_key {row row' : EventRow} (h : row.key = row'.key) : row.id = row'.id :=
  congrArg (fun key => (ofLex key).2) h

theorem reference_eq_some {id : ℕ} {key : EventKey} :
    s.reference (some id) = some key ↔ ∃ row ∈ s.events, row.id = id ∧ row.key = key := by
  rw [reference, bind_some, map_eq_some_iff]
  constructor
  · rintro ⟨row, hlookup, hkey⟩
    exact ⟨row, (Table.lookup_eq_some.1 hlookup).1, (Table.lookup_eq_some.1 hlookup).2, hkey⟩
  · rintro ⟨row, hrow, hid, hkey⟩
    exact ⟨row, Table.lookup_eq_some.2 ⟨hrow, hid⟩, hkey⟩

/-! ## What stays sound -/

section
variable {n : ℕ} (hstored : ∀ event, s.Stored event → t.Stored event)
include hstored

omit hstored in
theorem passed_mono {key : EventKey} (h : s.Passed n key)
    (howed : ∀ row, t.Owed n row → s.Owed n row ∨ key < row.key) : t.Passed n key := by
  intro row hrow
  rcases howed row hrow with hold | hafter
  · exact h row hold
  · exact hafter

theorem pageSound_mono {page : CatchUpPage} (h : s.PageSound n page)
    (howed : ∀ row, t.Owed n row → s.Owed n row ∨ ∀ event ∈ page.rest, event.key < row.key) :
    t.PageSound n page := by
  refine ⟨h.sorted, fun event hevent => hstored event (h.stored event hevent), fun row hrow => ?_⟩
  rcases howed row hrow with hold | hafter
  · exact h.complete row hold
  · exact .inr hafter

theorem eventSound_mono {event : EventRow} {page : Option CatchUpPage} (h : s.EventSound n event page)
    (howed : ∀ row, t.Owed n row →
      s.Owed n row ∨ ∀ p ∈ page, event.key < row.key ∧ ∀ event ∈ p.rest, event.key < row.key) :
    t.EventSound n event page := by
  cases page with
  | none => exact ⟨hstored event h.stored, nofun, nofun⟩
  | some page =>
    refine ⟨hstored event h.stored, fun _ => passed_mono (h.passed rfl) fun row hrow => ?_,
      fun p hp => ?_⟩
    · exact (howed row hrow).imp_right fun hafter => (hafter page rfl).1
    · refine pageSound_mono hstored (h.page p hp) fun row hrow => ?_
      exact (howed row hrow).imp_right fun hafter => (hafter p hp).2

theorem sound_mono {point : RouterPoint} (h : point.Sound s n)
    (howed : ∀ row, t.Owed n row → s.Owed n row ∨ ∀ key ∈ point.read, key < row.key) :
    point.Sound t n := by
  cases point with
  | querying ref =>
    intro key hkey
    refine passed_mono (h key hkey) fun row hrow => (howed row hrow).imp_right fun hafter =>
      hafter key ?_
    exact mem_toList.2 hkey
  | paging page =>
    refine pageSound_mono hstored h fun row hrow =>
      (howed row hrow).imp_right fun hafter event hevent => ?_
    exact hafter _ (mem_map_of_mem hevent)
  | dispatching event page =>
    refine eventSound_mono hstored h fun row hrow => (howed row hrow).imp_right fun hafter p hp => ?_
    cases hp
    exact ⟨hafter _ mem_cons_self, fun event hevent =>
      hafter _ (mem_cons_of_mem _ (mem_map_of_mem hevent))⟩
  | moving event page =>
    refine eventSound_mono hstored h fun row hrow => (howed row hrow).imp_right fun hafter p hp => ?_
    cases hp
    exact ⟨hafter _ mem_cons_self, fun event hevent =>
      hafter _ (mem_cons_of_mem _ (mem_map_of_mem hevent))⟩
  | notified | catchingUp | ended => trivial

end

/-- What a step need not look at again: what it leaves of the cursors, the processes and the scans. -/
theorem Ordered.follow (h : Ordered s) (hfollows : Follows s t)
    (hcursors : ∀ n id, (t.nodes[n]?.bind (·.lastProcessedEventId)) = some id →
      (s.nodes[n]?.bind (·.lastProcessedEventId)) = some id ∨ ∃ row ∈ t.events, row.id = id ∧
      t.Passed n row.key)
    (hprocs : ∀ proc ∈ t.procs, proc ∈ s.procs ∨ proc.point.Sound t proc.node)
    (hscans : ∀ scan ∈ t.scans, ∀ task ∈ scan, (∃ scan' ∈ s.scans, task ∈ scan') ∨
      t.Touched task.eventId) :
    Ordered t := by
  refine ⟨fun n id hid => ?_, fun proc hproc => ?_, fun scan hscan task htask => ?_, fun n id hid => ?_⟩
  · rcases hcursors n id hid with hold | hnew
    · obtain ⟨row, hrow, hrowId, hpassed⟩ := h.cursors n id hold
      obtain ⟨row', hrow', hkey⟩ := hfollows.stored row ⟨row, hrow, rfl⟩
      refine ⟨row', hrow', (id_of_key hkey).trans hrowId, ?_⟩
      rw [hkey]
      refine passed_mono hpassed fun owed howed =>
        (hfollows.owed n owed howed).imp_right fun hafter => hafter _ ?_
      refine mem_append_left _ (mem_toList.2 ?_)
      obtain ⟨node, hnode, hlast⟩ := bind_eq_some_iff.1 hold
      rw [hnode, bind_some, hlast]
      exact reference_eq_some.2 ⟨row, hrow, hrowId, rfl⟩
    · exact hnew
  · rcases hprocs proc hproc with hold | hnew
    · refine sound_mono hfollows.stored (h.points proc hold) fun row hrow => ?_
      refine (hfollows.owed proc.node row hrow).imp_right fun hafter key hkey => hafter key ?_
      refine mem_append_right _ (mem_flatMap.2 ⟨proc, ?_, hkey⟩)
      exact mem_filter.2 ⟨hold, decide_eq_true rfl⟩
    · exact hnew
  · rcases hscans scan hscan task htask with ⟨scan', hscan', htask'⟩ | hnew
    · exact hfollows.touched _ (h.scans scan' hscan' task htask')
    · exact hnew
  · rcases hfollows.missed n id hid with hold | hnew
    · obtain ⟨row, hrow, hrowId⟩ := h.missed n id hold
      obtain ⟨row', hrow', hkey⟩ := hfollows.stored row ⟨row, hrow, rfl⟩
      exact ⟨row', hrow', (id_of_key hkey).trans hrowId⟩
    · exact hnew

/-! ## What a step does to the events -/

/-- An update after which the event is not as it was inserted. -/
structure Touches (u : Update EventRow.id) : Prop where
  untouched : ∀ row, (u.set row).untouched = false
  createdAt : ∀ row, (u.set row).createdAt = row.createdAt

theorem untouched_of_closed (h : row.isOpen = false) : row.untouched = false := by
  rw [untouched, h]
  rfl

theorem untouched_of_claimed (h : row.claimedAt.isNone = false) : row.untouched = false := by
  rw [untouched, h, Bool.and_false]
  rfl

theorem untouched_of_retry (h : row.nextRetryAt.isNone = false) : row.untouched = false := by
  rw [untouched, h, Bool.and_false]

theorem isOpen_of_untouched (h : row.untouched) : row.isOpen := by
  rw [untouched, Bool.and_eq_true, Bool.and_eq_true] at h
  exact h.1.1

theorem touches_leaseOf : Touches (s.leaseOf config proc eventId) :=
  ⟨fun _ => untouched_of_claimed rfl, fun _ => rfl⟩

theorem touches_releaseExpiredLease : Touches (releaseExpiredLease eventId now) :=
  ⟨fun _ => untouched_of_retry rfl, fun _ => rfl⟩

theorem touches_resetFromDlq : Touches (resetFromDlq eventId now) :=
  ⟨fun _ => untouched_of_retry rfl, fun _ => rfl⟩

theorem touches_outcome {eventId attempts maxDispatchAttempts : ℕ} {ended : DispatchEnd} :
    Touches (outcome eventId attempts maxDispatchAttempts now ended) := by
  cases ended with
  | returned result => exact ⟨fun _ => untouched_of_closed rfl, fun _ => rfl⟩
  | threw errorMessage nextRetryAt =>
    rw [outcome]
    split
    · exact ⟨fun _ => untouched_of_closed rfl, fun _ => rfl⟩
    · exact ⟨fun _ => untouched_of_retry rfl, fun _ => rfl⟩

section
variable {u : Update EventRow.id} (hu : Touches u)
include hu

theorem Touches.key_apply (row : EventRow) : (u.apply row).key = row.key := by
  have hcreatedAt : (u.apply row).createdAt = row.createdAt := by
    rw [apply]
    split
    · exact hu.createdAt row
    · rfl
  have hid : (u.apply row).id = row.id := Update.key_apply row
  rw [key, key, hcreatedAt, hid]

/-- What is untouched after an update was not changed by it. -/
theorem Touches.mem_of_untouched {events : EventTable} {row : EventRow} (hrow : row ∈ events.execute u)
    (huntouched : row.untouched) : row ∈ events := by
  obtain ⟨old, hold, rfl⟩ := mem_map.1 hrow
  by_cases hguard : u.guard old
  · rw [apply_of_guard hguard, hu.untouched old] at huntouched
    cases huntouched
  · rw [apply_of_not_guard (Bool.eq_false_iff.2 hguard)]
    exact hold

/-- Updates, and events that are published again. -/
theorem Follows.of_execute (hevents : t.events = s.events.execute u)
    (hmissed : ∀ n id, t.missedBy n id → s.missedBy n id ∨ t.Touched id) : Follows s t := by
  refine ⟨?_, ?_, fun n row howed => .inl ?_, fun n id h => (hmissed n id h).imp_right ?_⟩
  · rintro event ⟨row, hrow, hkey⟩
    refine ⟨u.apply row, ?_, (hu.key_apply row).trans hkey⟩
    rw [hevents]
    exact mem_map_of_mem hrow
  · rintro id ⟨row, hrow, hid, htouched⟩
    refine ⟨u.apply row, ?_, (key_apply row).trans hid, ?_⟩
    · rw [hevents]
      exact mem_map_of_mem hrow
    · rw [apply]
      split
      · exact hu.untouched row
      · exact htouched
  · rcases hmissed n row.id howed.missed with hmissed | ⟨row', hrow', hid, htouched⟩
    · exact ⟨hu.mem_of_untouched (hevents ▸ howed.mem) howed.untouched, howed.untouched, hmissed⟩
    · rw [eq_of_id hrow' howed.mem hid, howed.untouched] at htouched
      cases htouched
  · rintro ⟨row, hrow, hid, -⟩
    exact ⟨row, hrow, hid⟩

end

/-- Steps that leave the events. -/
theorem Follows.of_eq (hevents : t.events = s.events)
    (hmissed : ∀ n id, t.missedBy n id → s.missedBy n id ∨ t.Touched id) : Follows s t := by
  refine ⟨?_, ?_, fun n row howed => .inl ?_, fun n id h => (hmissed n id h).imp_right ?_⟩
  · rintro event ⟨row, hrow, hkey⟩
    exact ⟨row, hevents ▸ hrow, hkey⟩
  · rintro id ⟨row, hrow, hid⟩
    exact ⟨row, hevents ▸ hrow, hid⟩
  · rcases hmissed n row.id howed.missed with hmissed | ⟨row', hrow', hid, htouched⟩
    · exact ⟨hevents ▸ howed.mem, howed.untouched, hmissed⟩
    · rw [eq_of_id hrow' howed.mem hid, howed.untouched] at htouched
      cases htouched
  · rintro ⟨row, hrow, hid, -⟩
    exact ⟨row, hrow, hid⟩

theorem Follows.same (hevents : t.events = s.events) (hmissed : t.missedBy = s.missedBy) : Follows s t :=
  .of_eq hevents fun _ _ h => .inl (hmissed ▸ h)

section
variable {n' : ℕ} {f : RouterNode → RouterNode} (hnodes : t.nodes = s.nodes.modify n' f)
include hnodes

/-- What else is changed of a node is no matter to what it missed. -/
theorem missedBy_modify (hf : ∀ node, (f node).missed = node.missed) (n id : ℕ) :
    t.missedBy n id = s.missedBy n id := by
  rw [missedBy, missedBy, hnodes, getElem?_modify, Option.map_eq_map]
  cases s.nodes[n]? with
  | none => rfl
  | some node =>
    rw [map_some, any_some, any_some]
    split
    · rw [hf node]
    · rfl

/-- The cursors are where they were, or where that of one node is moved to. -/
theorem cursor_modify {n id : ℕ} (h : (t.nodes[n]?.bind (·.lastProcessedEventId)) = some id) :
    (s.nodes[n]?.bind (·.lastProcessedEventId)) = some id ∨
      n = n' ∧ ∃ node, (f node).lastProcessedEventId = some id ∧ s.nodes[n]? = some node := by
  rw [hnodes, getElem?_modify, Option.map_eq_map] at h
  cases hnode : s.nodes[n]? with
  | none =>
    rw [hnode] at h
    cases h
  | some node =>
    rw [hnode, map_some, bind_some] at h
    split at h
    next hn => exact .inr ⟨hn.symm, node, h, rfl⟩
    · exact .inl h

end

/-- A node misses what it missed, or what is published while it does not listen. -/
theorem missedBy_publish {n id eventId : ℕ} (h : (s.publish eventId).missedBy n id) :
    s.missedBy n id ∨ id = eventId ∧ s.nodes[n]?.any (·.listening) = false := by
  rw [missedBy, publish, getElem?_map] at h
  rw [missedBy]
  cases hnode : s.nodes[n]? with
  | none =>
    rw [hnode] at h
    cases h
  | some node =>
    rw [hnode, map_some, any_some, RouterNode.publish] at h
    cases hlistening : node.listening with
    | true =>
      rw [hlistening, if_pos rfl] at h
      exact .inl h
    | false =>
      rw [hlistening, if_neg Bool.false_ne_true, decide_eq_true_eq, mem_cons] at h
      rcases h with rfl | hold
      · exact .inr ⟨rfl, hlistening⟩
      · exact .inl (decide_eq_true hold)

/-- Publishing leaves the cursors, -/
theorem cursor_publish (n eventId : ℕ) :
    ((s.publish eventId).nodes[n]?.bind (·.lastProcessedEventId)) = s.nodes[n]?.bind
    (·.lastProcessedEventId) := by
  rw [publish, getElem?_map]
  cases s.nodes[n]? with
  | none => rfl
  | some node =>
    rw [map_some, bind_some, bind_some, RouterNode.publish]
    split <;> rfl

/-- and notifies nodes. -/
theorem sound_of_mem_publish (h : proc ∈ (s.publish eventId).procs) :
    proc ∈ s.procs ∨ proc.point.Sound t proc.node := by
  rcases mem_append.1 h with hold | hnew
  · exact .inl hold
  · obtain ⟨n, -, rfl⟩ := mem_map.1 hnew
    exact .inr trivial

/-- A process goes on. -/
theorem Ordered.goOn (h : Ordered s) (hfollows : Follows s t) {k : ℕ} {point : RouterPoint}
    (hnodes : t.nodes = s.nodes) (hprocs : t.procs = s.procs.set k { proc with point })
    (hscans : t.scans = s.scans) (hsound : point.Sound t proc.node) : Ordered t := by
  refine h.follow hfollows (fun n id hid => .inl ?_) (fun proc' hproc' => ?_)
    fun scan hscan task htask => .inl ?_
  · rw [← hnodes]
    exact hid
  · rw [hprocs] at hproc'
    rcases mem_or_eq_of_mem_set hproc' with hold | rfl
    · exact .inl hold
    · exact .inr hsound
  · rw [hscans] at hscan
    exact ⟨scan, hscan, htask⟩

end Kici.Events
