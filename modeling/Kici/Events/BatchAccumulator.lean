import Kici.Foundation.Table
import Kici.Js.Str

/-!
# Batch windows

A failed run that a workflow collects is an item of the batch window of that workflow's
registration. The first failure opens the window (`BatchStore.insertWindow`), and those after it
find it (`BatchStore.existingWindow`). A window that has expired is swept: its items are read and it
is deleted, in one transaction (`BatchStore.sweepWindow`). What was swept makes the event
`__workflows_failed_batch` (`SweptBatchWindow.workflowsFailedBatch`).

There is one window of a registration at most, and every item is of a window that is stored: the
table says the one, and the store the other (`BatchStore.references`).
-/

namespace Kici.Events

open List

/-- A failed run in a batch window. -/
structure BatchAccumulatorRun where
  runId : JsString
  repoIdentifier : JsString
  workflowName : JsString
  failureClass : Option JsString := none
  senderUsername : Option JsString := none
  deriving DecidableEq

structure OpenBatchWindowInput where
  registrationId : JsString
  customerId : JsString
  routingKey : JsString
  repoIdentifier : JsString
  accumulateForMs : ℕ

/-- A row of `batch_accumulation_windows`. -/
structure BatchWindow where
  id : ℕ
  customerId : JsString
  registrationId : JsString
  routingKey : JsString
  repoIdentifier : JsString
  accumulateForMs : ℕ
  expiresAt : ℕ

/-- A row of `batch_accumulation_items`. -/
structure BatchItem where
  id : ℕ
  windowId : ℕ
  run : BatchAccumulatorRun
  createdAt : ℕ
  deriving DecidableEq

/-- The windows, one of a registration, and the items of these windows. -/
structure BatchStore where
  windows : Table BatchWindow.registrationId
  items : List BatchItem
  /-- The next of the ids, which are drawn at random and never twice. -/
  nextId : ℕ
  references : ∀ item ∈ items, ∃ window ∈ windows, window.id = item.windowId

/-- A window that was swept, with its items. -/
structure SweptBatchWindow where
  window : BatchWindow
  items : List BatchItem

namespace BatchStore

variable (store : BatchStore)

/-- No window, and no item. -/
def empty : BatchStore := ⟨.empty _, [], 0, nofun⟩

/-- The insertion of `openOrGetBatchWindow`: the id of the window, unless the registration has one. -/
def insertWindow (input : OpenBatchWindowInput) (now : ℕ) : BatchStore × Option ℕ :=
  match store.windows.lookup input.registrationId with
  | some _ => (store, none)
  | none =>
    ({ store with
        windows := store.windows.insertNew ⟨store.nextId, input.customerId, input.registrationId,
          input.routingKey,
          input.repoIdentifier, input.accumulateForMs, now + input.accumulateForMs⟩
        nextId := store.nextId + 1
        references := fun item hitem =>
          have ⟨window, hwindow, hid⟩ := store.references item hitem
          ⟨window, Table.mem_insertNew_of_mem hwindow _, hid⟩ },
      some store.nextId)

/-- The selection of `openOrGetBatchWindow`, which throws where there is no window. -/
def existingWindow (registrationId : JsString) : Option ℕ :=
  (store.windows.lookup registrationId).map (·.id)

/-- The window is stored. -/
def hasWindow (windowId : ℕ) : Bool := store.windows.rows.any (·.id = windowId)

/-- Append a failed run; the item refers to its window, so this throws where the window is gone. -/
def appendBatchItem (windowId : ℕ) (run : BatchAccumulatorRun) (now : ℕ) :
    Option (BatchStore × BatchItem) :=
  if h : store.hasWindow windowId then
    some ({ store with
        items := store.items ++ [⟨store.nextId, windowId, run, now⟩]
        nextId := store.nextId + 1
        references := by
          intro item hitem
          rcases mem_append.1 hitem with hold | hnew
          · exact store.references item hold
          · obtain rfl := mem_singleton.1 hnew
            simpa [hasWindow, Table.mem_def] using h },
      ⟨store.nextId, windowId, run, now⟩)
  else none

/-- The windows that have expired, in the order in which they did. -/
def expiredWindows (byExpiry : OrderBy BatchWindow.expiresAt) (now : ℕ) : List BatchWindow :=
  byExpiry.sort (store.windows.rows.filter (·.expiresAt ≤ now))

/-- Delete a window, and its items with it. -/
def deleteWindow (windowId : ℕ) : BatchStore where
  windows := ⟨store.windows.rows.filter (·.id ≠ windowId),
    store.windows.nodup.sublist (filter_sublist.map _)⟩
  items := store.items.filter (·.windowId ≠ windowId)
  nextId := store.nextId
  references := by
    intro item hitem
    obtain ⟨hmem, hother⟩ := mem_filter.1 hitem
    obtain ⟨window, hwindow, hid⟩ := store.references item hmem
    exact ⟨window, mem_filter.2 ⟨hwindow, by rw [hid]; exact hother⟩, hid⟩

/-- The transaction that sweeps a window: nothing is done where the window is gone, or another
transaction has locked it. -/
def sweepWindow (byCreation : OrderBy BatchItem.createdAt) (window : BatchWindow) (skipLocked : Bool) :
    BatchStore × Option SweptBatchWindow :=
  if skipLocked || !store.hasWindow window.id then (store, none)
  else (store.deleteWindow window.id,
    some ⟨window, byCreation.sort (store.items.filter (·.windowId = window.id))⟩)

end BatchStore

/-! ## The event -/

/-- Max failed runs enumerated in a single payload. -/
def BATCH_MAX_RUNS : ℕ := 200

structure WorkflowsFailedBatchRun where
  runId : JsString
  repo : JsString
  workflowName : JsString
  failureClass : Option JsString
  senderUsername : Option JsString

structure WorkflowsFailedBatchData where
  routingKey : JsString
  repo : JsString
  registrationId : JsString
  total : ℕ
  runs : List WorkflowsFailedBatchRun

/-- A text that is empty is left out. -/
def unlessEmpty (s : Option JsString) : Option JsString := s.filter (· ≠ [])

namespace SweptBatchWindow

variable (swept : SweptBatchWindow)

def runs : List BatchAccumulatorRun := swept.items.map (·.run)

/-- What `processBatchWindows` emits for a window. -/
def workflowsFailedBatch : WorkflowsFailedBatchData where
  routingKey := swept.window.routingKey
  repo := swept.window.repoIdentifier
  registrationId := swept.window.registrationId
  total := swept.runs.length
  runs := (swept.runs.take BATCH_MAX_RUNS).map fun r =>
    ⟨r.runId, r.repoIdentifier, r.workflowName, unlessEmpty r.failureClass, unlessEmpty r.senderUsername⟩

end SweptBatchWindow

/-- An event that is committed, with the items that its total counts. -/
structure BatchEvent where
  data : WorkflowsFailedBatchData
  counted : List BatchItem
  total_eq : data.total = counted.length

/-- The event of a window. -/
def SweptBatchWindow.event (swept : SweptBatchWindow) : BatchEvent :=
  ⟨swept.workflowsFailedBatch, swept.items, length_map _⟩

end Kici.Events
