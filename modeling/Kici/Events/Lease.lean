import Kici.Events.EventStore
import Kici.Foundation.System

/-!
# Leases on events

Any number of nodes take leases on events, dispatch them, and record the outcomes when they come to
an end; the leader looks for leases that are too old, and releases what it has found, one after the
other (`LeaseState.scans`). A notification makes a node try for a lease; as any node may try at any
time, it is not part of the state.

What a node writes at the end of a dispatch, and what the leader releases, is found by the id of the
event alone. So a node that was too slow ends the lease of the one that has taken over, and the next
one gets a lease beside it (`exists_two_leases`). As long as an outcome is written only where no
lease was taken since, and a lease is released only where it is still too old (`LeaseState.fenced`),
leases exclude each other (`lease_law`).
-/

namespace Kici.Events

open List Table Bool

variable {k maxDispatchAttempts : ℕ} {ended : DispatchEnd} {row : EventRow}

/-- A dispatch of an event, with the attempts that its lease has counted. -/
structure Dispatch where
  node : String
  eventId : ℕ
  leasedAt : ℤ
  attempts : ℕ
  recorded : Bool := false

structure LeaseState where
  events : EventTable
  now : ℤ
  /-- In the order in which the leases were taken. -/
  dispatches : List Dispatch := []
  /-- The events that scans have found and not yet released. -/
  scans : List (List ℕ) := []

inductive LeaseAction
  | tick (now : ℤ)
  | tryLease (node : String) (eventId : ℕ)
  /-- A dispatch ends, with the bound on attempts that is then set. -/
  | record (k : ℕ) (ended : DispatchEnd) (maxDispatchAttempts : ℕ)
  /-- A scan finds leases that are too old, as many as its limit lets it. -/
  | findExpiredLeases (limit : ℕ)
  | releaseNext (j : ℕ)

namespace LeaseState

variable (leaseDurationMs : ℤ) (s : LeaseState)

/-- The lease of a dispatch is not too old, and its outcome is not recorded. -/
def Holds (d : Dispatch) : Prop := d.recorded = false ∧ s.now < d.leasedAt + leaseDurationMs

def step : LeaseAction → Option LeaseState
  | .tick now => if s.now ≤ now then some { s with now } else none
  | .tryLease node eventId =>
    match s.events.returning (tryLeaseForProcessing eventId s.now leaseDurationMs node) with
    | row :: _ =>
      some { s with
        events := s.events.execute (tryLeaseForProcessing eventId s.now leaseDurationMs node)
        dispatches := s.dispatches ++ [⟨node, eventId, s.now, row.attempts, false⟩] }
    | [] => some s
  | .record k ended maxDispatchAttempts =>
    match s.dispatches[k]? with
    | none => none
    | some d =>
      if d.recorded then none
      else
        some { s with
          events := s.events.execute (outcome d.eventId d.attempts maxDispatchAttempts s.now ended)
          dispatches := s.dispatches.set k { d with recorded := true } }
  | .findExpiredLeases limit =>
    some { s with scans := s.scans ++
      [((expiredLeases s.events s.now leaseDurationMs).take limit).map (·.id)] }
  | .releaseNext j =>
    match s.scans[j]? with
    | some (eventId :: rest) =>
      some { s with
        events := s.events.execute (releaseExpiredLease eventId s.now)
        scans := s.scans.set j rest }
    | _ => none

/-- No lease was taken since that of a dispatch. -/
def latest (d : Dispatch) : Bool := (s.events.lookup d.eventId).all (·.attempts = d.attempts)

/-- An outcome is written where no lease was taken since, and a lease is released where there is
none, or a lease that is too old. -/
def fenced : LeaseAction → Bool
  | .record k _ _ => s.dispatches[k]?.all s.latest
  | .releaseNext j =>
    match s.scans[j]? with
    | some (eventId :: _) =>
      (s.events.lookup eventId).all fun row =>
        row.claimedAt.isNone || row.leaseExpired leaseDurationMs s.now
    | _ => true
  | .tick _ | .tryLease _ _ | .findExpiredLeases _ => true

/-- Another node has taken a lease on the event since. -/
def TakenOver (k : ℕ) : Prop :=
  ∃ d d' k', s.dispatches[k]? = some d ∧ k < k' ∧ s.dispatches[k']? = some d' ∧ d'.eventId = d.eventId ∧
    d'.node ≠ d.node

end LeaseState

open LeaseState

/-- The nodes and the leader over one database. -/
def leaseSystem (leaseDurationMs : ℤ) : System LeaseState LeaseAction where
  init := {s | s.dispatches = [] ∧ s.scans = []}
  step := step leaseDurationMs

/-- Whoever takes a lease finds no other node that holds one, and what a node records whose lease
was taken over changes nothing. -/
structure LeaseLaw (leaseDurationMs : ℤ) (s : LeaseState) (a : LeaseAction) (t : LeaseState) : Prop where
  exclusive : ∀ node eventId, a = .tryLease node eventId → t.dispatches ≠ s.dispatches →
    ∀ d ∈ s.dispatches, d.eventId = eventId → d.node ≠ node → ¬ s.Holds leaseDurationMs d
  silent : ∀ k ended maxDispatchAttempts, a = .record k ended maxDispatchAttempts → s.TakenOver k →
    t.events = s.events

variable {leaseDurationMs : ℤ} {s t : LeaseState} {a : LeaseAction}

/-! ## What holds in every run -/

/-- Every dispatch is of an event, and has no more attempts than it; what a node holds is the lease
of the event. -/
structure LeasesSound (leaseDurationMs : ℤ) (s : LeaseState) : Prop where
  row : ∀ d ∈ s.dispatches, ∃ row, s.events.lookup d.eventId = some row ∧ d.attempts ≤ row.attempts ∧
    (s.Holds leaseDurationMs d → row.claimedAt = some d.leasedAt ∧ d.attempts = row.attempts)
  increasing : s.dispatches.Pairwise fun d d' => d.eventId = d'.eventId → d.attempts < d'.attempts

/-- A lease that is held is not too old. -/
theorem not_leaseExpired {d : Dispatch} (hclaimed : row.claimedAt = some d.leasedAt)
    (hholds : s.Holds leaseDurationMs d) :
    (row.claimedAt.isNone || row.leaseExpired leaseDurationMs s.now) = false := by
  rw [EventRow.leaseExpired, hclaimed]
  have hyoung := hholds.2
  exact decide_eq_false (by omega)

/-- A row changes as an update says, if it is the one that is meant. -/
theorem lookup_of_guard_eq {u : Update EventRow.id} {eventId id : ℕ}
    (hlookup : s.events.lookup id = some row) (hguard : u.guard row = decide (row.id = eventId)) :
    (s.events.execute u).lookup id = some (if id = eventId then u.set row else row) := by
  have hid : row.id = id := (lookup_eq_some.1 hlookup).2
  by_cases heq : id = eventId
  · rw [if_pos heq]
    exact lookup_execute_of_guard hlookup (hguard.trans (decide_eq_true (hid.trans heq)))
  · rw [if_neg heq]
    exact lookup_execute_of_not_guard hlookup (hguard.trans (decide_eq_false (hid ▸ heq)))

/-- A lease is taken where it can be, and then no dispatch of the event holds one. -/
theorem LeasesSound.not_holds {d : Dispatch} (h : LeasesSound leaseDurationMs s)
    (hlookup : s.events.lookup d.eventId = some row) (hleasable : row.leasable leaseDurationMs s.now)
    (hmem : d ∈ s.dispatches) : ¬ s.Holds leaseDurationMs d := by
  intro hholds
  obtain ⟨row', hlookup', -, hclaimed⟩ := h.row d hmem
  rw [hlookup] at hlookup'
  cases hlookup'
  have hno := not_leaseExpired (hclaimed hholds).1 hholds
  rw [EventRow.leasable, hno, Bool.and_false] at hleasable
  cases hleasable

/-- What taking a lease does. -/
theorem tryLease_cases {node : String} {eventId : ℕ}
    (hstep : (leaseSystem leaseDurationMs).step s (.tryLease node eventId) = some t) :
    t = s ∨ ∃ row, s.events.lookup eventId = some row ∧ row.leasable leaseDurationMs s.now ∧
      t = { s with
        events := s.events.execute (tryLeaseForProcessing eventId s.now leaseDurationMs node)
        dispatches := s.dispatches ++ [⟨node, eventId, s.now, row.attempts + 1, false⟩] } := by
  rw [leaseSystem] at hstep
  simp only [step] at hstep
  split at hstep
  next leased rows hrows =>
    cases hstep
    obtain ⟨row, hmem, hguard, hset⟩ := mem_returning.1 (hrows ▸ mem_cons_self)
    obtain ⟨hid, hleasable⟩ := and_eq_true_iff.1 hguard
    refine .inr ⟨row, lookup_eq_some.2 ⟨hmem, of_decide_eq_true hid⟩, hleasable, ?_⟩
    rw [← hset]
    rfl
  next =>
    cases hstep
    exact .inl rfl

/-- What the end of a dispatch does. -/
theorem record_cases
    (hstep : (leaseSystem leaseDurationMs).step s (.record k ended maxDispatchAttempts) = some t) :
    ∃ d, s.dispatches[k]? = some d ∧ d.recorded = false ∧
      t = { s with
        events := s.events.execute (outcome d.eventId d.attempts maxDispatchAttempts s.now ended)
        dispatches := s.dispatches.set k { d with recorded := true } } := by
  rw [leaseSystem] at hstep
  simp only [step] at hstep
  split at hstep
  · cases hstep
  next d hd =>
    split at hstep
    · cases hstep
    next hopen =>
      cases hstep
      exact ⟨d, hd, eq_false_iff.2 hopen, rfl⟩

/-- What a release does. -/
theorem release_cases {j : ℕ} (hstep : (leaseSystem leaseDurationMs).step s (.releaseNext j) = some t) :
    ∃ eventId rest, s.scans[j]? = some (eventId :: rest) ∧
      t = { s with
        events := s.events.execute (releaseExpiredLease eventId s.now)
        scans := s.scans.set j rest } := by
  rw [leaseSystem] at hstep
  simp only [step] at hstep
  split at hstep
  next eventId rest hscan =>
    cases hstep
    exact ⟨eventId, rest, hscan, rfl⟩
  next => cases hstep

section

variable (h : LeasesSound leaseDurationMs s)
include h

/-- The attempts of dispatches of one event tell them apart. -/
theorem LeasesSound.eq_of_attempts {d d' : Dispatch} {k k' : ℕ}
    (hd : s.dispatches[k]? = some d) (hd' : s.dispatches[k']? = some d')
    (hevent : d.eventId = d'.eventId) (hattempts : d.attempts = d'.attempts) : k = k' := by
  obtain ⟨hk, rfl⟩ := List.getElem?_eq_some_iff.1 hd
  obtain ⟨hk', rfl⟩ := List.getElem?_eq_some_iff.1 hd'
  rcases lt_trichotomy k k' with hlt | heq | hgt
  · exact absurd hattempts (pairwise_iff_getElem.1 h.increasing k k' hk hk' hlt hevent).ne
  · exact heq
  · exact absurd hattempts.symm (pairwise_iff_getElem.1 h.increasing k' k hk' hk hgt hevent.symm).ne

theorem LeasesSound.tryLease {node : String} {eventId : ℕ}
    (hstep : (leaseSystem leaseDurationMs).step s (.tryLease node eventId) = some t) :
    LeasesSound leaseDurationMs t := by
  rcases tryLease_cases hstep with rfl | ⟨row, hlookup, hleasable, rfl⟩
  · exact h
  · have hset : (s.events.execute (tryLeaseForProcessing eventId s.now leaseDurationMs node)).lookup
      eventId =
        some ((tryLeaseForProcessing eventId s.now leaseDurationMs node).set row) := by
      refine lookup_execute_of_guard hlookup (and_eq_true_iff.2 ⟨?_, hleasable⟩)
      exact decide_eq_true (lookup_eq_some.1 hlookup).2
    constructor
    · intro d hmem
      rcases mem_append.1 hmem with hold | hnew
      · obtain ⟨row', hlookup', hle, hclaimed⟩ := h.row d hold
        by_cases hevent : d.eventId = eventId
        · -- Whoever dispatches the event holds no lease any more.
          rw [hevent] at hlookup' ⊢
          rw [hlookup] at hlookup'
          cases hlookup'
          refine ⟨_, hset, hle.trans (Nat.le_succ _), fun hholds => absurd hholds ?_⟩
          exact h.not_holds (hevent ▸ hlookup) hleasable hold
        · refine ⟨row', lookup_execute_of_not_guard hlookup' ?_, hle, hclaimed⟩
          have hid := (lookup_eq_some.1 hlookup').2
          exact and_eq_false_imp.2 fun hsame => absurd (hid ▸ of_decide_eq_true hsame) hevent
      · rw [mem_singleton.1 hnew]
        exact ⟨_, hset, le_rfl, fun _ => ⟨rfl, rfl⟩⟩
    · refine pairwise_append.2 ⟨h.increasing, pairwise_singleton _ _, fun d hold d' hnew hevent => ?_⟩
      rw [mem_singleton.1 hnew] at hevent ⊢
      obtain ⟨row', hlookup', hle, -⟩ := h.row d hold
      rw [hevent, hlookup] at hlookup'
      cases hlookup'
      exact Nat.lt_succ_of_le hle

theorem LeasesSound.record
    (hfenced : s.fenced leaseDurationMs (.record k ended maxDispatchAttempts))
    (hstep : (leaseSystem leaseDurationMs).step s (.record k ended maxDispatchAttempts) = some t) :
    LeasesSound leaseDurationMs t := by
  obtain ⟨d, hd, -, rfl⟩ := record_cases hstep
  have hlatest : s.latest d := by
    rw [fenced, hd] at hfenced
    exact hfenced
  have hrow : ∀ d', (∃ k', s.dispatches[k']? = some d' ∧ (k' = k → ¬ s.Holds leaseDurationMs d')) ∨
      d' = { d with recorded := true } →
        ∃ row, (s.events.execute
          (outcome d.eventId d.attempts maxDispatchAttempts s.now ended)).lookup d'.eventId =
          some row ∧ d'.attempts ≤ row.attempts ∧
            (s.Holds leaseDurationMs d' → row.claimedAt = some d'.leasedAt ∧
              d'.attempts = row.attempts) := by
    rintro d' (⟨k', hd', hself⟩ | rfl)
    · obtain ⟨row, hlookup, hle, hclaimed⟩ := h.row d' (mem_of_getElem? hd')
      refine ⟨_, lookup_of_guard_eq hlookup guard_outcome, ?_, fun hholds => ?_⟩
      · split
        · rw [(set_outcome row).2]
          exact hle
        · exact hle
      · split
        next hevent =>
          -- Whoever holds the lease has taken it last, so it is the one that records.
          obtain ⟨-, hattempts⟩ := hclaimed hholds
          rw [latest, ← hevent, hlookup] at hlatest
          have hsame : row.attempts = d.attempts := of_decide_eq_true hlatest
          exact absurd hholds (hself (h.eq_of_attempts hd' hd hevent (hattempts.trans hsame)))
        next => exact hclaimed hholds
    · obtain ⟨row, hlookup, hle, -⟩ := h.row d (mem_of_getElem? hd)
      refine ⟨_, lookup_of_guard_eq hlookup guard_outcome, ?_, fun hholds => ?_⟩
      · rw [if_pos rfl, (set_outcome row).2]
        exact hle
      · cases hholds.1
  constructor
  · intro d' hmem
    obtain ⟨k', hget⟩ := mem_iff_getElem?.1 hmem
    refine hrow d' ?_
    rw [getElem?_set] at hget
    split at hget
    next heq =>
      split at hget
      · cases hget
        exact .inr rfl
      · cases hget
    next hne => exact .inl ⟨k', hget, fun heq => absurd heq.symm hne⟩
  · -- The dispatches keep their events and their attempts.
    have hkeeps : (s.dispatches.set k { d with recorded := true }).map
      (fun d => (d.eventId, d.attempts)) =
        s.dispatches.map fun d => (d.eventId, d.attempts) := by
      rw [map_set]
      refine ext_getElem? fun i => ?_
      rw [getElem?_set]
      split
      next heq =>
        rw [← heq, getElem?_map, hd, if_pos]
        · rfl
        · rw [length_map]
          exact (List.getElem?_eq_some_iff.1 hd).1
      next => rfl
    have hpairs : (s.dispatches.map fun d => (d.eventId, d.attempts)).Pairwise fun p p' =>
      p.1 = p'.1 → p.2 < p'.2 :=
      pairwise_map.2 h.increasing
    rw [← hkeeps] at hpairs
    exact pairwise_map.1 hpairs

theorem LeasesSound.release {j : ℕ}
    (hfenced : s.fenced leaseDurationMs (.releaseNext j))
    (hstep : (leaseSystem leaseDurationMs).step s (.releaseNext j) = some t) :
    LeasesSound leaseDurationMs t := by
  obtain ⟨eventId, rest, hscan, rfl⟩ := release_cases hstep
  refine ⟨fun d hmem => ?_, h.increasing⟩
  obtain ⟨row, hlookup, hle, hclaimed⟩ := h.row d hmem
  by_cases hguard : (releaseExpiredLease eventId s.now).guard row
  · refine ⟨_, lookup_execute_of_guard hlookup hguard, hle, fun hholds => ?_⟩
    -- What is released is too old to be held.
    have hevent : d.eventId = eventId := by
      rw [← (lookup_eq_some.1 hlookup).2]
      exact of_decide_eq_true (and_eq_true_iff.1 hguard).1
    rw [fenced, hscan] at hfenced
    simp only [← hevent, hlookup, Option.all_some] at hfenced
    rw [not_leaseExpired (hclaimed hholds).1 hholds] at hfenced
    cases hfenced
  · exact ⟨row, lookup_execute_of_not_guard hlookup (eq_false_iff.2 hguard), hle, hclaimed⟩

theorem LeasesSound.step (hfenced : s.fenced leaseDurationMs a)
    (hstep : (leaseSystem leaseDurationMs).step s a = some t) : LeasesSound leaseDurationMs t := by
  cases a with
  | tick now =>
    rw [leaseSystem] at hstep
    simp only [step] at hstep
    split at hstep
    next hle =>
      cases hstep
      refine ⟨fun d hmem => ?_, h.increasing⟩
      obtain ⟨row, hlookup, hattempts, hclaimed⟩ := h.row d hmem
      refine ⟨row, hlookup, hattempts, ?_⟩
      rintro ⟨hopen, hyoung⟩
      exact hclaimed ⟨hopen, hle.trans_lt hyoung⟩
    next => cases hstep
  | tryLease node eventId => exact h.tryLease hstep
  | record k ended maxDispatchAttempts => exact h.record hfenced hstep
  | findExpiredLeases limit =>
    cases hstep
    exact ⟨h.row, h.increasing⟩
  | releaseNext j => exact h.release hfenced hstep

end

/-- What holds of every run whose outcomes and releases are fenced. -/
theorem leasesSound_of_fenced
    (h : (leaseSystem leaseDurationMs).Reachable (fun s a => s.fenced leaseDurationMs a) s) :
    LeasesSound leaseDurationMs s := by
  refine h.invariant ?_ fun s a t hs hfenced hstep => hs.step hfenced hstep
  rintro s ⟨hnone, -⟩
  constructor
  · intro d hmem
    rw [hnone] at hmem
    cases hmem
  · rw [hnone]
    exact List.Pairwise.nil

/-- What a node may record has not been taken over. -/
theorem LeasesSound.not_takenOver (h : LeasesSound leaseDurationMs s)
    (hfenced : s.fenced leaseDurationMs (.record k ended maxDispatchAttempts)) : ¬ s.TakenOver k := by
  rintro ⟨d, d', k', hd, hlt, hd', hevent, -⟩
  rw [fenced, hd] at hfenced
  obtain ⟨row, hlookup, hle, -⟩ := h.row d' (mem_of_getElem? hd')
  have hlatest : s.latest d := hfenced
  rw [latest, ← hevent, hlookup] at hlatest
  have hsame : row.attempts = d.attempts := of_decide_eq_true hlatest
  obtain ⟨hk, rfl⟩ := List.getElem?_eq_some_iff.1 hd
  obtain ⟨hk', rfl⟩ := List.getElem?_eq_some_iff.1 hd'
  have hless := pairwise_iff_getElem.1 h.increasing k k' hk hk' hlt hevent.symm
  omega

/-- Where outcomes and releases are fenced, a lease is exclusive. -/
theorem lease_law (h : (leaseSystem leaseDurationMs).Reachable (fun s a => s.fenced leaseDurationMs a) s)
    (hfenced : s.fenced leaseDurationMs a) (hstep : (leaseSystem leaseDurationMs).step s a = some t) :
    LeaseLaw leaseDurationMs s a t := by
  have hsound := leasesSound_of_fenced h
  constructor
  · rintro node eventId rfl hleased d hmem rfl -
    rcases tryLease_cases hstep with rfl | ⟨row, hlookup, hleasable, -⟩
    · exact absurd rfl hleased
    · exact hsound.not_holds hlookup hleasable hmem
  · rintro k ended maxDispatchAttempts rfl htaken
    exact absurd htaken (hsound.not_takenOver hfenced)

/-! ### A node that is too slow -/

/-- An event that `node-a` has leased at 0, and `node-b` at 70. -/
def leasedTwice : LeaseState where
  events := .singleton EventRow.id
    { id := 1, createdAt := 0, claimedAt := some 70, claimedBy := some "node-b", attempts := 2 }
  now := 70
  dispatches := [⟨"node-a", 1, 0, 1, false⟩, ⟨"node-b", 1, 70, 2, false⟩]

theorem reachable_leasedTwice {ok : LeaseState → LeaseAction → Prop}
    (hok : ∀ s a, s.fenced 60 a → ok s a) : (leaseSystem 60).Reachable ok leasedTwice := by
  have hrun : (leaseSystem 60).run (fun s a => s.fenced 60 a)
      ⟨.singleton EventRow.id { id := 1, createdAt := 0 }, 0, [], []⟩
      [.tryLease "node-a" 1, .tick 70, .tryLease "node-b" 1] = some leasedTwice := rfl
  exact ⟨_, ⟨rfl, rfl⟩, System.path_of_run hok hrun⟩

/-- `node-c` gets no lease beside that of `node-b`, and one when that is too old. -/
theorem lease_law_of_holder :
    (leaseSystem 60).step leasedTwice (.tryLease "node-c" 1) = some leasedTwice ∧
      LeaseLaw 60 leasedTwice (.tryLease "node-c" 1) leasedTwice ∧
        ∃ t, (leaseSystem 60).step { leasedTwice with now := 131 } (.tryLease "node-c" 1) = some t ∧
          t.dispatches.length = 3 ∧
            LeaseLaw 60 { leasedTwice with now := 131 } (.tryLease "node-c" 1) t := by
  have hreach := reachable_leasedTwice fun _ _ h => h
  have hlater := hreach.trans (.tail (a := .tick 131) .refl rfl rfl)
  exact ⟨rfl, lease_law hreach rfl rfl, _, rfl, rfl, lease_law hlater rfl rfl⟩

/-- `node-a` records that it has failed, and `node-c` gets a lease beside that of `node-b`. -/
theorem exists_two_leases : ∃ t u, (leaseSystem 60).Reachable System.anyStep leasedTwice ∧
    (leaseSystem 60).step leasedTwice (.record 0 (.threw (js "timeout") 80) 5) = some t ∧
      (leaseSystem 60).step t (.tryLease "node-c" 1) = some u ∧
        ¬ LeaseLaw 60 leasedTwice (.record 0 (.threw (js "timeout") 80) 5) t ∧
          ¬ LeaseLaw 60 t (.tryLease "node-c" 1) u := by
  refine ⟨_, _, reachable_leasedTwice fun _ _ _ => trivial, rfl, rfl, fun h => ?_, fun h => ?_⟩
  · have htaken : leasedTwice.TakenOver 0 :=
      ⟨⟨"node-a", 1, 0, 1, false⟩, ⟨"node-b", 1, 70, 2, false⟩, 1, rfl, by decide, rfl, rfl, by decide⟩
    have hrows := congrArg rows (h.silent 0 _ 5 rfl htaken)
    revert hrows
    decide
  · refine h.exclusive "node-c" 1 rfl (fun heq => absurd (congrArg List.length heq) (by decide))
      ⟨"node-b", 1, 70, 2, false⟩ ?_ rfl (by decide) ⟨rfl, by decide⟩
    exact mem_cons_of_mem _ mem_cons_self

end Kici.Events
