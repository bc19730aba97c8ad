import Kici.Events.AttemptBudget
import Kici.Events.CatchUp

/-!
# Every event ends, within its attempts

An event is dispatched no more often than it may be, and as long as it is open somebody will find it
(`every_event_ends`): in every run that is careful. A node that crashes during each attempt has the
event dispatched again each time, and a node does not catch up on an event that is committed late
(`exists_event_never_ends`).
-/

namespace Kici.Events

open Option RouterState List System

variable {config : RouterConfig} {s : RouterState}

theorem budget_init (h : s ∈ (routerSystem config).init) : Budget config s := by
  obtain ⟨hevents, hpending, -, -, hentries, -⟩ := h
  refine ⟨?_, fun id _ => by rw [hentries], ?_, ?_, ?_⟩
  all_goals
    first | rw [hevents] | rw [hpending]
    exact fun row hrow => absurd hrow not_mem_nil

theorem ordered_init (h : s ∈ (routerSystem config).init) : Ordered s := by
  obtain ⟨-, -, hprocs, hscans, -, hnodes⟩ := h
  refine ⟨fun n id hid => ?_, ?_, ?_, fun n id hid => ?_⟩
  · obtain ⟨node, hnode, hlast⟩ := bind_eq_some_iff.1 hid
    rw [(hnodes node (mem_of_getElem? hnode)).1] at hlast
    cases hlast
  · rw [hprocs]
    exact fun proc hproc => absurd hproc not_mem_nil
  · rw [hscans]
    exact fun scan hscan => absurd hscan not_mem_nil
  · obtain ⟨node, hnode, hmissed⟩ := (Option.any_eq_true _ _).1 hid
    rw [(hnodes node (mem_of_getElem? hnode)).2] at hmissed
    cases hmissed

/-- An event that is open, not leased and not to be tried again comes after the cursors of the nodes
that missed it. -/
theorem isAfter_of_ordered (h : Ordered s) {row : EventRow} (hrow : row ∈ s.events)
    (huntouched : row.untouched)
    {node : RouterNode} (hnode : node ∈ s.nodes) (hmissed : row.id ∈ node.missed) :
    row.isAfter (s.reference node.lastProcessedEventId) := by
  obtain ⟨n, hn⟩ := getElem?_of_mem hnode
  cases hlast : node.lastProcessedEventId with
  | none => rfl
  | some id =>
    obtain ⟨ref, href, hid, hpassed⟩ := h.cursors n id (by rw [hn, bind_some, hlast])
    rw [reference_eq_some.2 ⟨ref, href, hid, rfl⟩]
    refine decide_eq_true (hpassed row ⟨hrow, huntouched, ?_⟩)
    rw [missedBy, hn, any_some]
    exact decide_eq_true hmissed

/-- An event is dispatched no more often than it may be, and until it has ended somebody will find
it, where no lease of a last attempt is taken over, released, or ended by another dispatch, and no
cursor passes an event that its node missed. -/
theorem every_event_ends (hpos : 0 < config.maxDispatchAttempts)
    (h : (routerSystem config).Reachable (fun s a => s.careful config a) s) : s.Ends config := by
  have hbudget : Budget config s :=
    h.invariant (fun _ => budget_init) fun _ _ _ hs hcareful hstep => budget_step hs hpos hcareful hstep
  have hordered : Ordered s :=
    h.invariant (fun _ => ordered_init) fun _ _ _ hs hcareful hstep => ordered_step hs hcareful hstep
  refine ⟨fun eventId => ?_, fun row hrow _ hopen => ?_⟩
  · cases hlookup : s.events.lookup eventId with
    | some row =>
      obtain ⟨hrow, rfl⟩ := Table.lookup_eq_some.1 hlookup
      exact (hbudget.entries row hrow).trans (hbudget.attempts row hrow)
    | none =>
      rw [hbudget.unused eventId fun row hrow heq => ?_]
      · exact Nat.zero_le _
      · rw [← heq, Table.lookup_of_mem hrow] at hlookup
        cases hlookup
  · by_cases hretry : row.nextRetryAt.isSome
    · exact .inl hretry
    by_cases hclaimed : row.claimedAt.isSome
    · exact .inr (.inl hclaimed)
    have huntouched : row.untouched := by
      rw [EventRow.untouched, hopen, ← not_isSome, ← not_isSome, Bool.eq_false_iff.2 hretry,
        Bool.eq_false_iff.2 hclaimed]
      rfl
    exact .inr (.inr fun node hnode hmissed => isAfter_of_ordered hordered hrow huntouched hnode hmissed)

/-! ## Runs -/

def twoAttempts : RouterConfig where
  maxDispatchAttempts := 2
  leaseDurationMs := 10
  nodeId _ := "orchestrator"

def oneNode : RouterState where
  now := 0
  events := .empty _
  nodes := [{}]

/-- The node starts, and finds nothing to catch up on. -/
def starts : List RouterAction := [.connect 0, .step 0, .step 0]

/-- The node misses an event, and catches up on it; the dispatch throws, and the event is published
again. -/
def caughtUp : List RouterAction :=
  starts ++ [.disconnect 0, .emit 1, .commit 1, .connect 0, .step 1, .step 1, .step 1,
    .record 1 (.threw (js "down") 5),
    .step 1, .step 1, .elapse 5, .findEventsDueForRetry, .scanStep 0]

/-- The node crashes during each attempt, and the scanner releases the leases. -/
def crashes : List RouterAction :=
  starts ++ [.emit 1, .commit 1, .step 1, .crash 0, .elapse 20, .findExpiredLeases,
    .scanStep 0, .connect 0,
    .scanStep 0, .step 3, .crash 0, .elapse 20, .findExpiredLeases, .scanStep 1, .connect 0,
      .scanStep 1, .step 5]

/-- An event is committed after one that was emitted later, while the node does not listen. The node
that catches up looks for events after that one. -/
def commitsLate : List RouterAction :=
  starts ++ [.emit 1, .elapse 1, .emit 2, .commit 2, .step 1,
    .record 1 (.returned ⟨.matched, 1⟩), .step 1,
    .disconnect 0, .commit 1, .connect 0, .step 2, .step 2]

theorem every_event_ends_caught_up : ∃ s : RouterState, s.Ends twoAttempts ∧ s.entries 1 = 1 := by
  have hrun : (((routerSystem twoAttempts).run (careful twoAttempts) oneNode caughtUp).any
      fun s => s.entries 1 = 1) := by decide
  obtain ⟨s, hpath, hs⟩ := exists_path_of_run (fun _ _ h => h) _ hrun
  exact ⟨s, every_event_ends (by decide) ⟨oneNode, ⟨rfl, rfl, rfl, rfl, rfl, by decide⟩, hpath⟩,
    of_decide_eq_true hs⟩

/-- An open event is left that nobody dispatches, and that is before the cursor of a node that
missed it. -/
def RouterState.leaves (s : RouterState) : Bool :=
  s.events.rows.any fun row =>
    s.procs.all (!·.point.concerns row.id) && row.isOpen && row.nextRetryAt.isNone &&
      row.claimedAt.isNone &&
      s.nodes.any fun node =>
        decide (row.id ∈ node.missed) && !row.isAfter (s.reference node.lastProcessedEventId)

theorem leaves_iff : s.leaves ↔ ∃ row ∈ s.events, s.Idle row.id ∧ row.isOpen ∧
    row.nextRetryAt = none ∧ row.claimedAt = none ∧
      ∃ node ∈ s.nodes, row.id ∈ node.missed ∧
      row.isAfter (s.reference node.lastProcessedEventId) = false := by
  simp only [leaves, List.any_eq_true, Bool.and_eq_true, List.all_eq_true, isNone_iff_eq_none,
    decide_eq_true_eq, Bool.not_eq_eq_eq_not, Bool.not_true, Idle, Table.mem_def, and_assoc]

/-- An event may be dispatched once more each time the node crashes, and it may be left for good. -/
theorem exists_event_never_ends :
    (∃ s, (routerSystem twoAttempts).Reachable anyStep s ∧ s.entries 1 = 3) ∧
      ∃ s, (routerSystem twoAttempts).Reachable anyStep s ∧ ∃ row ∈ s.events, s.Idle row.id ∧
        row.isOpen ∧ row.nextRetryAt = none ∧ row.claimedAt = none ∧
          ∃ node ∈ s.nodes, row.id ∈ node.missed ∧
          row.isAfter (s.reference node.lastProcessedEventId) = false := by
  have hinit : oneNode ∈ (routerSystem twoAttempts).init := ⟨rfl, rfl, rfl, rfl, rfl, by decide⟩
  constructor
  · obtain ⟨s, hpath, hs⟩ := (routerSystem twoAttempts).exists_path_of_run anyStep_of_true crashes
      (s := oneNode) (p := fun s => s.entries 1 = 3) (by decide)
    exact ⟨s, ⟨oneNode, hinit, hpath⟩, of_decide_eq_true hs⟩
  · obtain ⟨s, hpath, hs⟩ := (routerSystem twoAttempts).exists_path_of_run anyStep_of_true commitsLate
      (s := oneNode) (p := leaves) (by decide)
    exact ⟨s, ⟨oneNode, hinit, hpath⟩, leaves_iff.1 hs⟩

end Kici.Events
