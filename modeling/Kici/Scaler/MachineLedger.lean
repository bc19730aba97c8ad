import Mathlib.Algebra.Order.Monoid.Unbundled.Basic

/-!
# The machine ledger

Orchestrators on one host that share a pool keep its reservations in a file. This is what
the operations do with the file they have read (`LedgerOp.perform`); how they take turns
at it is in `Kici.Scaler.LedgerHost`.

Sums are taken in turn from zero, as `reduce` does. Of the addition of numbers it is used
that it is monotone, and not that it is associative, as the numbers of the language round.
-/

namespace Kici

/-- What is reserved or is the most to be reserved: `resourceSpecSchema`,
`resourceCapSchema` and `parseMemoryString` yield nothing negative. -/
abbrev Amount (α : Type*) [Zero α] [LE α] := {x : α // 0 ≤ x}

/-- The version of the file. -/
def LEDGER_VERSION : ℕ := 1

section Types

variable (α : Type*) [Zero α] [LE α]

/-- The most that is to be reserved of a pool. -/
structure ResourceCap where
  maxCpu : Option (Amount α) := none
  maxMemoryBytes : Option (Amount α) := none

structure ReservationRow where
  instanceId : String
  pid : ℕ
  /-- The boot of the host in which the process runs. -/
  bootId : String
  agentId : String
  cpus : Amount α
  memBytes : Amount α
  reservedAt : ℕ

/-- The content of the file of a pool. -/
structure LedgerFile where
  version : ℕ
  cap : ResourceCap α
  reservations : List (ReservationRow α)

/-- What is reserved in all. -/
structure Usage where
  cpus : α
  memBytes : α

/-- The ledger in one process, with the identity of the process and the registered cap. -/
structure MachineLedger where
  instanceId : String
  pid : ℕ
  bootId : String
  expectedCap : Option (ResourceCap α)

/-- An operation on the ledger. -/
inductive LedgerOp
  | tryReserve (agentId : String) (cpus memBytes : Amount α)
  | release (agentId : String)
  | reapStale
  | getUsage
  | releaseAllForInstance

/-- What an operation returns; of a reservation with the row it wrote. -/
inductive LedgerResult
  | granted (row : ReservationRow α)
  | refused
  | usage (used : Usage α)
  | void

end Types

variable {α : Type*} [AddZeroClass α] [LinearOrder α]

def sumReservations (rows : List (ReservationRow α)) : Usage α :=
  rows.foldl (fun acc r => ⟨acc.cpus + r.cpus, acc.memBytes + r.memBytes⟩) ⟨0, 0⟩

/-- The text of a cap in a message: `JSON.stringify(cap)`. -/
abbrev CapText (α : Type*) [Zero α] [LE α] := ResourceCap α → String

/-- The ledger to be written after rows were removed, if some were. -/
def LedgerFile.writtenIfFewer (ledger : LedgerFile α) (kept : List (ReservationRow α)) :
    Option (LedgerFile α) :=
  if kept.length ≠ ledger.reservations.length then some { ledger with reservations := kept }
  else none

namespace MachineLedger

variable (m : MachineLedger α)

/-- Read a ledger from the content of its file; a missing file is an empty ledger. -/
def readLedger (stringify : CapText α) (poolName : String) (file : Option (LedgerFile α)) :
    Except String (LedgerFile α) :=
  match m.expectedCap with
  | none => .error ("machine-ledger: pool \"" ++ poolName ++
      "\" was not registered with registerPool() before use")
  | some expected =>
    match file with
    | none => .ok ⟨LEDGER_VERSION, expected, []⟩
    | some parsed =>
      if parsed.version ≠ LEDGER_VERSION then
        .error ("machine-ledger: pool \"" ++ poolName ++ "\" file has unknown version " ++
          toString parsed.version)
      else if parsed.cap.maxCpu ≠ expected.maxCpu ∨
          parsed.cap.maxMemoryBytes ≠ expected.maxMemoryBytes then
        .error ("machine-ledger: pool \"" ++ poolName ++ "\" cap mismatch -- file has " ++
          stringify parsed.cap ++ ", caller expects " ++ stringify expected ++
          ". Edit one orchestrator's config or update the file.")
      else .ok parsed

/-- Whether a row is not that of a dead process, where `alive pid` tells whether
`process.kill(pid, 0)` finds the process. -/
def keepsRow (alive : ℕ → Bool) (r : ReservationRow α) : Bool :=
  r.bootId = m.bootId ∧ (r.instanceId ≠ m.instanceId ∨ alive r.pid)

def dropDeadReservations (alive : ℕ → Bool) (ledger : LedgerFile α) : LedgerFile α :=
  { ledger with reservations := ledger.reservations.filter (m.keepsRow alive) }

/-- What `tryReserve` does under the lock: the ledger it writes, and what it returns. -/
def tryReserve (alive : ℕ → Bool) (now : ℕ) (agentId : String) (cpus memBytes : Amount α)
    (ledger : LedgerFile α) : LedgerFile α × LedgerResult α :=
  let ledger := m.dropDeadReservations alive ledger
  let used := sumReservations ledger.reservations
  if ∃ max ∈ ledger.cap.maxCpu, max.1 < used.cpus + cpus then (ledger, .refused)
  else if ∃ max ∈ ledger.cap.maxMemoryBytes, max.1 < used.memBytes + memBytes then (ledger, .refused)
  else
    let row : ReservationRow α := {
      instanceId := m.instanceId
      pid := m.pid
      bootId := m.bootId
      agentId
      cpus
      memBytes
      reservedAt := now }
    ({ ledger with reservations := ledger.reservations ++ [row] }, .granted row)

end MachineLedger

/-- What an operation does under the lock with the ledger it has read: the ledger it
writes, if it does, and what it returns. -/
def LedgerOp.perform (m : MachineLedger α) (alive : ℕ → Bool) (now : ℕ) (ledger : LedgerFile α) :
    LedgerOp α → Option (LedgerFile α) × LedgerResult α
  | .tryReserve agentId cpus memBytes =>
    let (written, result) := m.tryReserve alive now agentId cpus memBytes ledger
    (some written, result)
  | .release agentId =>
    (ledger.writtenIfFewer (ledger.reservations.filter fun r =>
      r.instanceId ≠ m.instanceId ∨ r.agentId ≠ agentId), .void)
  | .reapStale =>
    (ledger.writtenIfFewer (m.dropDeadReservations alive ledger).reservations, .void)
  | .getUsage => (none, .usage (sumReservations (m.dropDeadReservations alive ledger).reservations))
  | .releaseAllForInstance =>
    (ledger.writtenIfFewer (ledger.reservations.filter fun r => r.instanceId ≠ m.instanceId), .void)

end Kici
