import Kici.Events.EventStore
import Kici.Foundation.System
import Mathlib.Data.Prod.Lex

/-!
# Notifications of events, and catching up on them

An event is inserted and published in one transaction. Each node that listens is notified, takes a
lease of the event and dispatches it (`RouterPoint.notified`). A node that connects catches up
first: it reads the open events after its cursor, a page after the other (`unprocessedAfter`), and
dispatches them. Its cursor is the event that it dispatched last, whether it was notified of it or
found it.

The pages are in the order of `EventRow.key`, which is the order in which the transactions began. A
scanner releases leases that are too old and publishes events again, and so may an administrator
(`RouterAction`).

There are four ways in which an event comes to be tried too often, or not again
(`RouterState.careful`): a lease of the last attempt is taken over or released, or is ended by a
dispatch whose own lease was taken over; and the cursor of a node passes an event that it missed,
because it was notified of a later one or because the event was committed after a later one.
-/

namespace Kici.Events

/-- The keyset that pages of events are ordered by. -/
abbrev EventKey : Type := ℤ ×ₗ ℕ

namespace EventRow

variable (row : EventRow)

def key : EventKey := toLex (row.createdAt, row.id)

/-- The event comes after a reference event, if there is one. -/
def isAfter (ref : Option EventKey) : Bool := ref.all (· < row.key)

/-- The event is open, and it was never leased, or reset, since it was inserted. -/
def untouched : Bool := row.isOpen && row.claimedAt.isNone && row.nextRetryAt.isNone

end EventRow

def EVENT_CATCHUP_BATCH_SIZE : ℕ := 100

/-- The most rows that the scanner finds at once. -/
def DEFAULT_BATCH_LIMIT : ℕ := 200

/-- The page of open events after the reference event. -/
def unprocessedAfter (events : EventTable) (ref : Option EventKey) (limit : ℕ) : List EventRow :=
  ((events.rows.filter fun row => row.isOpen && row.isAfter ref).insertionSort fun r s =>
    r.key ≤ s.key).take limit

structure RouterConfig where
  maxDispatchAttempts : ℕ
  leaseDurationMs : ℤ
  nodeId : ℕ → String

/-- A node, as far as it hears of events. -/
structure RouterNode where
  listening : Bool := false
  lastProcessedEventId : Option ℕ := none
  /-- The events that were published while it did not listen. -/
  missed : List ℕ := []

/-- What `catchUp` has yet to do with a page that it has read, and whether there may be more. -/
structure CatchUpPage where
  rest : List EventRow
  full : Bool

/-- Where `onNotification` or `catchUp` has got to. -/
inductive RouterPoint
  /-- The node is notified, and takes the lease next. -/
  | notified (eventId : ℕ)
  /-- The next page is to be read, -/
  | catchingUp
  /-- after the reference event; -/
  | querying (ref : Option EventKey)
  /-- it is read. -/
  | paging (page : CatchUpPage)
  /-- `dispatchAndRecord` is entered. What is left of a page is there if `catchUp` has entered it. -/
  | dispatching (event : EventRow) (page : Option CatchUpPage)
  /-- The event is done with, and the cursor is moved next. -/
  | moving (event : EventRow) (page : Option CatchUpPage)
  | ended

structure RouterProc where
  node : ℕ
  point : RouterPoint

/-- What a tick of the scanner has yet to do with the events that it found, or an administrator with
one that was reset. -/
inductive ScanTask
  | release (eventId : ℕ)
  | publish (eventId : ℕ)

def ScanTask.eventId : ScanTask → ℕ
  | .release eventId | .publish eventId => eventId

structure RouterState where
  now : ℤ
  events : EventTable
  /-- The events of transactions that are not committed. -/
  pending : List EventRow := []
  nodes : List RouterNode
  procs : List RouterProc := []
  scans : List (List ScanTask) := []
  /-- How often `dispatchAndRecord` was entered for an event since it was last reset. -/
  entries : ℕ → ℕ := fun _ => 0

inductive RouterAction
  | elapse (ms : ℕ)
  /-- A transaction begins that emits an event. -/
  | emit (eventId : ℕ)
  | commit (eventId : ℕ)
  | rollBack (eventId : ℕ)
  | connect (n : ℕ)
  | disconnect (n : ℕ)
  | crash (n : ℕ)
  | step (k : ℕ)
  /-- The lease is taken, but the answer does not arrive. -/
  | loseLease (k : ℕ)
  /-- A dispatch ends, and its outcome is recorded. -/
  | record (k : ℕ) (ended : DispatchEnd)
  /-- A statement throws that has no effect. -/
  | throw (k : ℕ)
  | findExpiredLeases
  | findEventsDueForRetry
  | scanStep (j : ℕ)
  | stopScan (j : ℕ)
  /-- An administrator retries an event that was given up. -/
  | resetFromDlq (eventId : ℕ)

namespace RouterNode

/-- The node when an event is published. -/
def publish (eventId : ℕ) (node : RouterNode) : RouterNode :=
  if node.listening then node else { node with missed := eventId :: node.missed }

end RouterNode

/-- A process when a node crashes. -/
def RouterProc.crash (n : ℕ) (proc : RouterProc) : RouterProc :=
  if proc.node = n then { proc with point := .ended } else proc

/-- The event that a process takes the lease of next. -/
def RouterProc.leasing (proc : RouterProc) : Option ℕ :=
  match proc.point with
  | .notified eventId => some eventId
  | .paging ⟨event :: _, _⟩ => some event.id
  | _ => none

namespace RouterState

variable (config : RouterConfig) (s : RouterState)

/-- A process goes on. -/
def goOn (k : ℕ) (proc : RouterProc) (point : RouterPoint) : RouterState :=
  { s with procs := s.procs.set k { proc with point } }

/-- The nodes that are notified of an event when it is published. -/
def listeners : List ℕ := (List.range s.nodes.length).filter fun n => s.nodes[n]?.any (·.listening)

/-- `pg_notify`. -/
def publish (eventId : ℕ) : RouterState :=
  { s with
    nodes := s.nodes.map (.publish eventId)
    procs := s.procs ++ s.listeners.map fun n => ⟨n, .notified eventId⟩ }

/-- The lease that a process takes. -/
def leaseOf (proc : RouterProc) (eventId : ℕ) : Update EventRow.id :=
  tryLeaseForProcessing eventId s.now config.leaseDurationMs (config.nodeId proc.node)

/-- A process takes the lease, and enters `dispatchAndRecord` if it gets it. -/
def lease (k : ℕ) (proc : RouterProc) (eventId : ℕ) (page : Option CatchUpPage)
    (otherwise : RouterPoint) : RouterState :=
  match s.events.returning (s.leaseOf config proc eventId) with
  | [] => s.goOn k proc otherwise
  | event :: _ =>
    { s with
      events := s.events.execute (s.leaseOf config proc eventId)
      entries := Function.update s.entries eventId (s.entries eventId + 1) }.goOn k proc
        (.dispatching event page)

/-- The reference event of a cursor: there is none if there is no such event. -/
def reference (cursor : Option ℕ) : Option EventKey :=
  cursor.bind fun id => (s.events.lookup id).map (·.key)

/-- The next step of a process, but for the end of a dispatch. -/
def procStep (k : ℕ) (proc : RouterProc) : Option RouterState :=
  match proc.point with
  | .notified eventId => some (s.lease config k proc eventId none .ended)
  | .catchingUp =>
    s.nodes[proc.node]?.map fun node => s.goOn k proc (.querying (s.reference node.lastProcessedEventId))
  | .querying ref =>
    let events := unprocessedAfter s.events ref EVENT_CATCHUP_BATCH_SIZE
    some (s.goOn k proc
      (if events.isEmpty then .ended else .paging ⟨events, EVENT_CATCHUP_BATCH_SIZE ≤ events.length⟩))
  | .paging ⟨event :: rest, full⟩ =>
    some (s.lease config k proc event.id (some ⟨rest, full⟩) (.moving event (some ⟨rest, full⟩)))
  | .paging ⟨[], full⟩ => some (s.goOn k proc (if full then .catchingUp else .ended))
  | .moving event page =>
    some ({ s with
      nodes := s.nodes.modify proc.node fun node =>
        { node with lastProcessedEventId := some event.id } }.goOn k proc
        (page.elim .ended .paging))
  | .dispatching .. | .ended => none

/-- The next step of a tick of the scanner. -/
def scanStep (j : ℕ) : List ScanTask → Option RouterState
  | .release eventId :: rest =>
    some { s with
      events := s.events.execute (releaseExpiredLease eventId s.now)
      scans := s.scans.set j rest }
  | .publish eventId :: rest => some ({ s with scans := s.scans.set j rest }.publish eventId)
  | [] => none

/-- The outcome of a dispatch is recorded. -/
def record (k : ℕ) (proc : RouterProc) (ended : DispatchEnd) : Option RouterState :=
  match proc.point with
  | .dispatching event page =>
    some ({ s with
      events := s.events.execute
        (outcome event.id event.attempts config.maxDispatchAttempts s.now ended) }.goOn k proc
        (.moving event page))
  | _ => none

/-- The oldest leases first. -/
def foundExpired : List EventRow :=
  ((expiredLeases s.events s.now config.leaseDurationMs).insertionSort
    fun r s => r.claimedAt.getD 0 ≤ s.claimedAt.getD 0).take DEFAULT_BATCH_LIMIT

def foundDue : List EventRow :=
  ((dueForRetry s.events s.now).insertionSort fun r s =>
    r.nextRetryAt.getD 0 ≤ s.nextRetryAt.getD 0).take
    DEFAULT_BATCH_LIMIT

/-- No event has the id, not even one that is not committed. -/
def isFree (eventId : ℕ) : Bool := (s.events.lookup eventId).isNone && s.pending.all (·.id ≠ eventId)

def step : RouterAction → Option RouterState
  | .elapse ms => some { s with now := s.now + ms }
  | .emit eventId =>
    if s.isFree eventId then
      some { s with pending := s.pending ++ [{ id := eventId, createdAt := s.now }] }
    else none
  | .commit eventId =>
    (s.pending.find? (·.id = eventId)).bind fun row =>
      if (s.events.lookup eventId).isNone then
        some ({ s with
          pending := s.pending.filter (·.id ≠ eventId)
          events := s.events.insertNew row }.publish eventId)
      else none
  | .rollBack eventId => some { s with pending := s.pending.filter (·.id ≠ eventId) }
  | .connect n =>
    if s.nodes[n]?.any (!·.listening) then
      some { s with
        nodes := s.nodes.modify n fun node => { node with listening := true }
        procs := s.procs ++ [⟨n, .catchingUp⟩] }
    else none
  | .disconnect n =>
    some { s with nodes := s.nodes.modify n fun node => { node with listening := false } }
  | .crash n =>
    some { s with
      nodes := s.nodes.modify n fun node =>
        { node with listening := false, lastProcessedEventId := none }
      procs := s.procs.map (.crash n) }
  | .step k => s.procs[k]?.bind (s.procStep config k)
  | .loseLease k =>
    s.procs[k]?.bind fun proc =>
      proc.leasing.map fun eventId =>
        { s with events := s.events.execute (s.leaseOf config proc eventId) }.goOn k proc .ended
  | .record k ended => s.procs[k]?.bind fun proc => s.record config k proc ended
  | .throw k => s.procs[k]?.map fun proc => s.goOn k proc .ended
  | .findExpiredLeases =>
    some { s with
      scans := s.scans ++
        [(s.foundExpired config).flatMap fun row => [.release row.id, .publish row.id]] }
  | .findEventsDueForRetry => some { s with scans := s.scans ++ [s.foundDue.map (.publish ·.id)] }
  | .scanStep j => s.scans[j]?.bind (s.scanStep j)
  | .stopScan j => some { s with scans := s.scans.set j [] }
  | .resetFromDlq eventId =>
    if (s.events.returning (Events.resetFromDlq eventId s.now)).isEmpty then none
    else
      some { s with
        events := s.events.execute (Events.resetFromDlq eventId s.now)
        entries := Function.update s.entries eventId 0
        scans := s.scans ++ [[.publish eventId]] }

end RouterState

/-- The nodes over one database. -/
def routerSystem (config : RouterConfig) : System RouterState RouterAction where
  init := {s | s.events = .empty _ ∧ s.pending = [] ∧ s.procs = [] ∧ s.scans = [] ∧
    s.entries = (fun _ => 0) ∧
    ∀ node ∈ s.nodes, node.lastProcessedEventId = none ∧ node.missed = []}
  step := RouterState.step config

/-! ## Steps that lose no event -/

/-- The step is about the event that the process was notified of, or that it dispatches. -/
def RouterPoint.concerns (eventId : ℕ) : RouterPoint → Bool
  | .notified id => id = eventId
  | .dispatching event _ => event.id = eventId
  | .catchingUp | .querying _ | .paging _ | .moving .. | .ended => false

/-- The keys that `catchUp` has read and may move the cursor to, or past. -/
def RouterPoint.read : RouterPoint → List EventKey
  | .querying ref => ref.toList
  | .paging page => page.rest.map (·.key)
  | .dispatching event (some page) | .moving event (some page) => event.key :: page.rest.map (·.key)
  | .dispatching _ none | .moving _ none | .notified _ | .catchingUp | .ended => []

/-- The event is open, and has no attempts left. -/
def EventRow.spent (config : RouterConfig) (row : EventRow) : Bool :=
  row.isOpen && config.maxDispatchAttempts ≤ row.attempts

namespace RouterState

variable (config : RouterConfig) (s : RouterState)

/-- No node dispatches the event, and none is about to. -/
def Idle (eventId : ℕ) : Prop := ∀ proc ∈ s.procs, proc.point.concerns eventId = false

/-- The event is tried no more often than it may be, and unless it has ended, somebody will find
it. -/
structure Ends (s : RouterState) : Prop where
  budget : ∀ eventId, s.entries eventId ≤ config.maxDispatchAttempts
  found : ∀ row ∈ s.events, s.Idle row.id → row.isOpen = true → row.nextRetryAt.isSome = true ∨
    row.claimedAt.isSome = true ∨
    ∀ node ∈ s.nodes, row.id ∈ node.missed → row.isAfter (s.reference node.lastProcessedEventId) = true

def missedBy (n eventId : ℕ) : Bool := s.nodes[n]?.any fun node => decide (eventId ∈ node.missed)

/-- What the cursor of a node is at, and what its `catchUp` has read. -/
def positions (n : ℕ) : List EventKey :=
  (s.nodes[n]?.bind fun node => s.reference node.lastProcessedEventId).toList ++
    (s.procs.filter (·.node = n)).flatMap (·.point.read)

/-- The next step of a process does not take over a lease of a last attempt. If it moves the cursor
to an event that the node was notified of, nothing that it missed is left before that. -/
def carefulStep (proc : RouterProc) : Bool :=
  (proc.leasing.all fun eventId =>
    (s.events.lookup eventId).all fun row =>
      !(row.spent config && row.leaseExpired config.leaseDurationMs s.now)) &&
  match proc.point with
  | .moving event none =>
    s.events.rows.all fun row => !(row.untouched && s.missedBy proc.node row.id) || event.key < row.key
  | _ => true

/-- A dispatch that failed does not end the lease of another one that is the last. -/
def carefulRecord (proc : RouterProc) : DispatchEnd → Bool
  | .returned _ => true
  | .threw .. =>
    match proc.point with
    | .dispatching event _ =>
      config.maxDispatchAttempts ≤ event.attempts ||
        (s.events.lookup event.id).all fun row => row.attempts = event.attempts || !row.spent config
    | _ => true

/-- A scanner does not release a lease of a last attempt. -/
def carefulScan : List ScanTask → Bool
  | .release eventId :: _ => (s.events.lookup eventId).all fun row => !row.spent config
  | _ => true

/-- An event comes after all that the nodes have read that are not notified of it. -/
def carefulCommit (row : EventRow) : Bool :=
  (List.range s.nodes.length).all fun n =>
    s.nodes[n]?.any (·.listening) || (s.positions n).all (· < row.key)

def careful : RouterAction → Bool
  | .step k | .loseLease k => s.procs[k]?.all (s.carefulStep config)
  | .record k ended => s.procs[k]?.all (s.carefulRecord config · ended)
  | .scanStep j => s.scans[j]?.all (s.carefulScan config)
  | .commit eventId => (s.pending.find? (·.id = eventId)).all s.carefulCommit
  | .elapse _ | .emit _ | .rollBack _ | .connect _ | .disconnect _ | .crash _ | .throw _
  | .findExpiredLeases | .findEventsDueForRetry | .stopScan _ | .resetFromDlq _ => true

end RouterState

variable {config : RouterConfig} {s : RouterState}

/-- Rows of one event are the same. -/
theorem eq_of_id {events : EventTable} {row row' : EventRow} (hrow : row ∈ events)
    (hrow' : row' ∈ events) (hid : row.id = row'.id) : row = row' := by
  have hlookup := Table.lookup_of_mem hrow
  rw [hid, Table.lookup_of_mem hrow'] at hlookup
  exact (Option.some.inj hlookup).symm

theorem guard_leaseOf {proc : RouterProc} {eventId : ℕ} {row : EventRow} :
    (s.leaseOf config proc eventId).guard row ↔
      row.id = eventId ∧ row.leasable config.leaseDurationMs s.now := by
  rw [RouterState.leaseOf, tryLeaseForProcessing, Bool.and_eq_true, decide_eq_true_eq]

end Kici.Events
