import Kici.Foundation.Table
import Kici.Js.TextEncoder

/-!
# Internal events in the database

A row of `kici_events` is an event that is to be dispatched once. A node that wants to dispatch it
takes a lease (`tryLeaseForProcessing`), which counts an attempt, and records the outcome: the event
is processed, it is to be tried again, or it is given up (`markProcessed`, `recordDispatchFailure`,
`markDlq`). A lease that has become too old is released (`releaseExpiredLease`), and an event that
was given up may be reset (`resetFromDlq`).

All of these are updates of one row. Only the one that takes a lease looks at whether there is one.
-/

namespace Kici.Events

inductive DlqReason
  | exhaustedRetries
  | nonRetryable
  deriving DecidableEq

inductive EventMatchOutcome
  | matched
  | buffered
  | noRegistration
  | noTargetRepo
  | trustBlocked
  | noTriggerMatch
  deriving DecidableEq

/-- What the router resolved for an event, and to how many registrations it was dispatched. -/
structure EventMatchResult where
  outcome : EventMatchOutcome
  matchedCount : ℕ
  deriving DecidableEq

/-- The columns of an event that tell how far its dispatch is. -/
structure EventRow where
  id : ℕ
  createdAt : ℤ
  processed : Bool := false
  claimedAt : Option ℤ := none
  claimedBy : Option String := none
  attempts : ℕ := 0
  lastError : Option JsString := none
  nextRetryAt : Option ℤ := none
  dlqAt : Option ℤ := none
  dlqReason : Option DlqReason := none
  matchResult : Option EventMatchResult := none
  deriving DecidableEq

abbrev EventTable := Table EventRow.id

def LAST_ERROR_MAX_BYTES : ℕ := 4096

def truncateError (message : JsString) : JsString :=
  if ((codePoints message).flatMap utf8Bytes).length ≤ LAST_ERROR_MAX_BYTES then message
  else message.take LAST_ERROR_MAX_BYTES ++ js "...[truncated]"

namespace EventRow

variable (leaseDurationMs now : ℤ) (row : EventRow)

/-- The event is neither processed nor given up. -/
def isOpen : Bool := !row.processed && row.dlqAt.isNone

/-- There is a lease, and it is too old. -/
def leaseExpired : Bool := row.claimedAt.any (· < now - leaseDurationMs)

/-- Whether a lease can be taken. -/
def leasable : Bool := row.isOpen && (row.claimedAt.isNone || row.leaseExpired leaseDurationMs now)

end EventRow

/-! ## Updates -/

section
variable (id : ℕ) (now : ℤ)

def markProcessed (result : Option EventMatchResult) : Update EventRow.id where
  guard row := row.id = id
  set row :=
    { row with
      processed := true
      claimedAt := none
      claimedBy := none
      matchResult := result.or row.matchResult }

def tryLeaseForProcessing (leaseDurationMs : ℤ) (leaseHolder : String) : Update EventRow.id where
  guard row := row.id = id && row.leasable leaseDurationMs now
  set row :=
    { row with
      claimedAt := some now
      claimedBy := some leaseHolder
      attempts := row.attempts + 1 }

def recordDispatchFailure (errorMessage : JsString) (nextRetryAt : ℤ) : Update EventRow.id where
  guard row := row.id = id
  set row :=
    { row with
      claimedAt := none
      claimedBy := none
      lastError := some (truncateError errorMessage)
      nextRetryAt := some nextRetryAt }

def markDlq (reason : DlqReason) (errorMessage : Option JsString) : Update EventRow.id where
  guard row := row.id = id
  set row :=
    { row with
      processed := true
      claimedAt := none
      claimedBy := none
      dlqAt := some now
      dlqReason := some reason
      lastError := (errorMessage.map truncateError).or row.lastError }

def releaseExpiredLease : Update EventRow.id where
  guard row := row.id = id && row.isOpen
  set row :=
    { row with
      claimedAt := none
      claimedBy := none
      nextRetryAt := some now
      lastError := some (js "lease expired (dispatch node died or hung)") }

def resetFromDlq : Update EventRow.id where
  guard row := row.id = id && row.dlqAt.isSome
  set row :=
    { row with
      processed := false
      dlqAt := none
      dlqReason := none
      claimedAt := none
      claimedBy := none
      attempts := 0
      nextRetryAt := some now }

end

/-! ## Queries -/

section
variable (events : EventTable) (now : ℤ)

/-- The events whose leases are too old; the limit is on how many of them are found at once. -/
def expiredLeases (leaseDurationMs : ℤ) : List EventRow :=
  events.rows.filter fun row => row.isOpen && row.leaseExpired leaseDurationMs now

def dueForRetry : List EventRow :=
  events.rows.filter fun row => row.isOpen && row.nextRetryAt.any (· ≤ now)

end

/-! ## The end of a dispatch -/

/-- A dispatch returned, or threw. -/
inductive DispatchEnd
  | returned (result : EventMatchResult)
  /-- `nextRetryAt` is when it would be tried again. -/
  | threw (errorMessage : JsString) (nextRetryAt : ℤ)

/-- The outcome that `dispatchAndRecord` writes for an event that was leased with so many attempts. -/
def outcome (id attempts maxDispatchAttempts : ℕ) (now : ℤ) : DispatchEnd → Update EventRow.id
  | .returned result => markProcessed id (some result)
  | .threw errorMessage nextRetryAt =>
    if maxDispatchAttempts ≤ attempts then markDlq id now .exhaustedRetries (some errorMessage)
    else recordDispatchFailure id errorMessage nextRetryAt

variable {id attempts maxDispatchAttempts : ℕ} {now : ℤ} {row : EventRow} {ended : DispatchEnd}

/-- An outcome is written whatever has become of the event. -/
theorem guard_outcome : (outcome id attempts maxDispatchAttempts now ended).guard row = decide
    (row.id = id) := by
  cases ended with
  | returned result => rfl
  | threw errorMessage nextRetryAt =>
    rw [outcome]
    split <;> rfl

/-- It ends the lease, and counts nothing. -/
theorem set_outcome (row : EventRow) :
    ((outcome id attempts maxDispatchAttempts now ended).set row).claimedAt = none ∧
    ((outcome id attempts maxDispatchAttempts now ended).set row).attempts = row.attempts := by
  cases ended with
  | returned result => exact ⟨rfl, rfl⟩
  | threw errorMessage nextRetryAt =>
    rw [outcome]
    split <;> exact ⟨rfl, rfl⟩

end Kici.Events
