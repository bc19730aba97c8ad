import Kici.Foundation.System
import Kici.Scaler.MachineLedger

/-!
# Processes at the machine ledger

The runs of any number of processes on one host, and of any number of calls in each, on
the ledger of one pool. Each step of a call ends with what it awaits next: the making,
the `stat` or the removal of the lock directory, a timer, or an access to the file of the
ledger or to its copy (`LedgerState.callStep`). Any system call may fail, and any process
may crash, at any time.

Of a lock directory the calls see only when it was made. Its number, and the directory
that a call made or found, are kept to tell them apart. The log records, for ever, what
was reserved and released.
-/

namespace Kici

open Function

/-- A directory at the path of the lock. -/
structure LockDir where
  ino : ℕ
  mtimeMs : ℕ
  deriving DecidableEq

/-- How often a call tries to make the lock directory. -/
def MAX_ATTEMPTS : ℕ := 200

/-- How long a call waits after its first attempt. -/
def INITIAL_BACKOFF_MS : ℕ := 5

/-- The longest that a call waits. -/
def MAX_BACKOFF_MS : ℕ := 100

/-- The age from which a lock directory is presumed dead. -/
def STALE_LOCK_MS : ℕ := 30000

inductive ProcessStatus
  | notStarted
  | running
  | crashed
  deriving DecidableEq

/-- Where a call of `withLock` is: what it does next. -/
inductive CallPhase (α : Type*) [Zero α] [LE α]
  | idle
  | mkdir (attempt backoff : ℕ)
  | stat (attempt backoff : ℕ)
  /-- About to compare the age of the directory found by `stat`. -/
  | checkAge (attempt backoff : ℕ) (info : LockDir)
  | forceRelease (attempt backoff : ℕ) (info : LockDir)
  | delay (attempt backoff wakeAt : ℕ)
  | readLedger (lock : LockDir)
  /-- About to write the copy. -/
  | writeLedger (lock : LockDir) (ledger : LedgerFile α) (result : LedgerResult α)
  | rename (lock : LockDir) (ledger : LedgerFile α) (result : LedgerResult α)
  /-- Out of the critical section, about to remove the lock directory. -/
  | leave (lock : LockDir) (result : Except String (LedgerResult α))
  | returned (result : Except String (LedgerResult α))

namespace CallPhase

variable {α : Type*} [Zero α] [LE α]

/-- The directory a call has made, until it has removed it. -/
def lock? : CallPhase α → Option LockDir
  | .readLedger lock | .writeLedger lock _ _ | .rename lock _ _ | .leave lock _ => some lock
  | _ => none

/-- Whether the call is in the critical section. -/
def Critical : CallPhase α → Prop
  | .readLedger _ | .writeLedger .. | .rename .. => True
  | _ => False

instance : DecidablePred (Critical (α := α)) := fun p => by
  cases p <;> unfold Critical <;> infer_instance

end CallPhase

/-- What happened to reservations; that one was written, with the process it is of. -/
inductive LedgerEvent (κ α : Type*) [Zero α] [LE α]
  | reserved (process : κ) (row : ReservationRow α)
  | released (instanceId agentId : String)
  | releasedAll (instanceId : String)

/-- A host: the calls, of which process each is and what it does, and the ledger in each
process. -/
structure LedgerHost (ι κ α : Type*) [Zero α] [LE α] where
  poolName : String
  /-- The path of the lock directory. -/
  lock : String
  stringify : CapText α
  processOf : ι → κ
  op : ι → LedgerOp α
  ledgers : κ → MachineLedger α

structure LedgerState (ι κ α : Type*) [Zero α] [LE α] where
  now : ℕ
  status : κ → ProcessStatus
  phase : ι → CallPhase α
  lockDir : Option LockDir
  /-- The number of the next directory. -/
  nextIno : ℕ
  file : Option (LedgerFile α)
  /-- The copies to be renamed, by the `pid` in their names. -/
  copies : ℕ → Option (LedgerFile α)
  log : List (LedgerEvent κ α)

inductive LedgerAction (ι κ : Type*)
  | spawn (process : κ)
  | crash (process : κ)
  | tick (now : ℕ)
  /-- A step of a call, where the system call it makes may fail with a message, and
  `process.kill(pid, 0)` finds the processes that are `alive`. -/
  | advance (call : ι) (err : Option String) (alive : ℕ → Bool)

namespace LedgerState

variable {ι κ α : Type*} [AddZeroClass α] [LinearOrder α] [DecidableEq ι] [DecidableEq κ]
  (host : LedgerHost ι κ α) (s : LedgerState ι κ α)

/-- The call goes on to a phase. -/
def goTo (c : ι) (phase : CallPhase α) : LedgerState ι κ α :=
  { s with phase := update s.phase c phase }

/-- The call waits for its next attempt. -/
def backOff (c : ι) (attempt backoff : ℕ) : LedgerState ι κ α :=
  s.goTo c (.delay attempt backoff (s.now + min backoff MAX_BACKOFF_MS))

/-- The lock directory once it was to be removed, without an error or with one. -/
def rm (err : Option String) : LedgerState ι κ α :=
  { s with lockDir := if err = none then none else s.lockDir }

/-- A process starts or crashes. -/
def setStatus (process : κ) (status : ProcessStatus) : LedgerState ι κ α :=
  { s with status := update s.status process status }

/-- The ledger of the process of a call. -/
abbrev ledgerOf (host : LedgerHost ι κ α) (c : ι) : MachineLedger α := host.ledgers (host.processOf c)

/-- What a call that wrote the ledger did to reservations. -/
def eventOf (host : LedgerHost ι κ α) (c : ι) : LedgerResult α → List (LedgerEvent κ α)
  | .granted row => [.reserved (host.processOf c) row]
  | _ =>
    match host.op c with
    | .release agentId => [.released (ledgerOf host c).instanceId agentId]
    | .releaseAllForInstance => [.releasedAll (ledgerOf host c).instanceId]
    | _ => []

/-- The next step of a call. -/
def callStep (c : ι) (err : Option String) (alive : ℕ → Bool) : Option (LedgerState ι κ α) :=
  match s.phase c with
  | .idle => some (s.goTo c (.mkdir 0 INITIAL_BACKOFF_MS))
  | .mkdir attempt backoff =>
    match err, s.lockDir with
    | some message, _ => some (s.goTo c (.returned (.error message)))
    -- `EEXIST`
    | none, some _ => some (s.goTo c (.stat attempt backoff))
    | none, none =>
      let lock : LockDir := ⟨s.nextIno, s.now⟩
      some { s.goTo c (.readLedger lock) with lockDir := some lock, nextIno := s.nextIno + 1 }
  | .stat attempt backoff =>
    match err, s.lockDir with
    | none, some info => some (s.goTo c (.checkAge attempt backoff info))
    -- Errors, as where the directory vanished, are caught.
    | _, _ => some (s.backOff c attempt backoff)
  | .checkAge attempt backoff info =>
    if STALE_LOCK_MS < s.now - info.mtimeMs then some (s.goTo c (.forceRelease attempt backoff info))
    else some (s.backOff c attempt backoff)
  | .forceRelease attempt backoff _ => some ((s.rm err).backOff c attempt backoff)
  | .delay attempt backoff wakeAt =>
    if s.now < wakeAt then none
    else if attempt + 1 < MAX_ATTEMPTS then
      some (s.goTo c (.mkdir (attempt + 1) (min (backoff * 2) MAX_BACKOFF_MS)))
    else some (s.goTo c (.returned (.error
      ("machine-ledger: could not acquire lock on " ++ host.lock ++ " (timed out)"))))
  | .readLedger lock =>
    match err, (ledgerOf host c).readLedger host.stringify host.poolName s.file with
    | some message, _ | none, .error message => some (s.goTo c (.leave lock (.error message)))
    | none, .ok ledger =>
      match (host.op c).perform (ledgerOf host c) alive s.now ledger with
      | (none, result) => some (s.goTo c (.leave lock (.ok result)))
      | (some written, result) => some (s.goTo c (.writeLedger lock written result))
  | .writeLedger lock ledger result =>
    match err with
    | some message => some (s.goTo c (.leave lock (.error message)))
    | none => some { s.goTo c (.rename lock ledger result) with
        copies := update s.copies (ledgerOf host c).pid (some ledger) }
  | .rename lock _ result =>
    match err, s.copies (ledgerOf host c).pid with
    | some message, _ => some (s.goTo c (.leave lock (.error message)))
    | none, none => some (s.goTo c (.leave lock (.error "ENOENT")))
    | none, some copy => some { s.goTo c (.leave lock (.ok result)) with
        file := some copy
        copies := update s.copies (ledgerOf host c).pid none
        log := s.log ++ eventOf host c result }
  | .leave _ result => some ((s.rm err).goTo c (.returned result))
  | .returned _ => none

def step : LedgerAction ι κ → Option (LedgerState ι κ α)
  | .spawn process =>
    if s.status process = .notStarted then some (s.setStatus process .running) else none
  | .crash process =>
    if s.status process = .running then some (s.setStatus process .crashed) else none
  | .tick now => if s.now ≤ now then some { s with now } else none
  | .advance c err alive =>
    if s.status (host.processOf c) = .running then s.callStep host c err alive else none

/-- The call is in the critical section, and its process runs. -/
def Inside (c : ι) : Prop := s.status (host.processOf c) = .running ∧ (s.phase c).Critical

/-- What the platform promises, and the calls keep to: a call in the critical section
leaves it while its lock directory is not stale, and `process.kill(pid, 0)` finds the
processes of its instance that run. -/
def Lawful : LedgerAction ι κ → Prop
  | .tick now => ∀ c, s.Inside host c → ∀ lock, (s.phase c).lock? = some lock →
      now ≤ lock.mtimeMs + STALE_LOCK_MS
  | .advance c _ alive => ∀ process, s.status process = .running →
      (host.ledgers process).instanceId = (ledgerOf host c).instanceId →
      alive (host.ledgers process).pid = true
  | _ => True

end LedgerState

/-- The processes as a transition system, without a ledger at first. -/
def ledgerSystem {ι κ α : Type*} [AddZeroClass α] [LinearOrder α] [DecidableEq ι] [DecidableEq κ]
    (host : LedgerHost ι κ α) : System (LedgerState ι κ α) (LedgerAction ι κ) where
  init := {s | (∀ process, s.status process = .notStarted) ∧ (∀ c, s.phase c = .idle) ∧
    s.lockDir = none ∧ s.file = none ∧ s.log = []}
  step := LedgerState.step host

end Kici
